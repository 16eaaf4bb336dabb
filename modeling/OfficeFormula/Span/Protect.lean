import OfficeFormula.Span.Code
import OfficeFormula.Span.Form
import OfficeFormula.Span.Heuristic
import OfficeFormula.Span.Placeholder

/-!
# Formulas set aside

Before a text is read as Markdown, every formula in it is replaced by a placeholder, and the formula
is kept as an `Entry`. `protect` looks for one written form after the other, so that each form is
looked for only in what the earlier ones have left. Code is set aside first and put back at the end.

A formula that takes in the placeholders of others takes over their content, and those entries go. A
formula that would take in rendered markup is left as it is.
-/

namespace OfficeFormula.Span

inductive Kind where
  /-- Markup that has been rendered already. -/
  | rendered
  /-- A formula on a line of its own. -/
  | block
  /-- A formula inside a line. -/
  | inline
deriving DecidableEq, Repr

/-- A formula that has been set aside. -/
structure Entry where
  index : Nat
  kind : Kind
  content : Text

/-- The word that stands for the formula. -/
def Entry.word (e : Entry) : Text := placeholder e.index

/-- What has been set aside. -/
structure Store where
  /-- In the order in which they were set aside. -/
  spans : List Entry
  /-- The number of the next span. -/
  next : Nat
  code : List Text

namespace Store

def empty : Store := ⟨[], 0, []⟩

/-- The span that a placeholder stands for. -/
def find? (spans : List Entry) (word : Text) : Option Entry := spans.find? (·.word = word)

/-- The spans without the one that a placeholder stands for. -/
def erase (spans : List Entry) (word : Text) : List Entry := spans.filter (·.word ≠ word)

/-- The content of the span that `word` stands for, which is then gone; `word` itself if there is
none. -/
def takeOver (spans : List Entry) (word : Text) : List Entry × Text :=
  match find? spans word with
  | some s => (erase spans word, s.content)
  | none => (spans, word)

/-- The text with the content of spans in place of their placeholders, and the spans that are left.
-/
def expand (spans : List Entry) (t : Text) : List Entry × Text :=
  substitute (fun spans _ word => takeOver spans word) spans (segments placeholderForm t)

/-- The text with the code with numbers from `i` on put back in place of its placeholders. -/
def restoreCodeFrom (i : Nat) : List Text → Text → Text
  | [], t => t
  | code :: more, t => restoreCodeFrom (i + 1) more (Text.replaceAll (codePlaceholder i) code t)

/-- The text with code put back in place of its placeholders. -/
def restoreCode (code : List Text) (t : Text) : Text := restoreCodeFrom 0 code t

/-- Sets a formula aside, and gives its placeholder. -/
def add (s : Store) (kind : Kind) (content : Text) : Store × Text :=
  let (spans, expanded) := expand s.spans content
  ({ s with
      spans := spans ++ [⟨s.next, kind, restoreCode s.code expanded⟩]
      next := s.next + 1 },
    placeholder s.next)

/-- The text has the placeholder of rendered markup. -/
def holdsRendered (s : Store) (t : Text) : Bool :=
  (placeholdersIn t).any fun word => (find? s.spans word).any (·.kind = .rendered)

/-- Sets a formula aside unless it takes in rendered markup; `source` is how it was written. -/
def extract (s : Store) (kind : Kind) (source content : Text) : Store × Text :=
  if s.holdsRendered content then (s, source) else s.add kind content

/-- Sets code aside. -/
def addCode (s : Store) (code : Text) : Store × Text :=
  ({ s with code := s.code ++ [code] }, codePlaceholder s.code.length)

/-- Sets aside all formulas that are written in one form. -/
def extractForm (find : Recogniser) (kind : Kind) (s : Store) (t : Text) : Store × Text :=
  substitute (fun s source content => s.extract kind source content) s (segments find t)

/-- Sets aside all code that a recogniser finds. -/
def extractCode (find : Recogniser) (s : Store) (t : Text) : Store × Text :=
  substitute (fun s source _ => s.addCode source) s (segments find t)

/-- Sets aside all rendered markup. -/
def extractRendered (s : Store) (t : Text) : Store × Text :=
  substitute (fun s _ content => s.add .rendered content) s (segments renderedMarkup t)

/-- Sets aside what stands in brackets on lines of their own, if it looks like LaTeX. -/
def extractBracketBlocks (s : Store) (t : Text) : Store × Text :=
  substitute
    (fun s source content =>
      if hasLatex content then s.extract .block source content.trim else (s, source))
    s (segments bracketBlock t)

/-- The parentheses with what they hold. -/
def inParentheses (content : Text) : Text := '(' :: content ++ [')']

/-- What becomes of balanced parentheses: a formula if their content looks like one. -/
def closeParentheses (isMath : Text → Bool) (s : Store) (content : Text) : Store × Text :=
  if isMath content then s.extract .inline (inParentheses content) content
  else (s, inParentheses content)

/-- Sets aside what stands in balanced parentheses and looks like a formula. `depth` parentheses are
open, `held` is what has been read inside the outermost one, the last character first, and
`previous` stands before the text. Parentheses after a closing bracket are the target of a link. -/
def softScan (isMath : Text → Bool) (s : Store) (previous : Option Char) (depth : Nat)
    (held : Text) : Text → Store × Text
  | [] => (s, if depth = 0 then [] else '(' :: held.reverse)
  | c :: cs =>
    if c = '(' then
      if depth = 0 then
        if previous = some ']' then
          let (s', t) := softScan isMath s (some c) 0 held cs
          (s', c :: t)
        else softScan isMath s (some c) 1 [] cs
      else softScan isMath s (some c) (depth + 1) (c :: held) cs
    else if c = ')' ∧ depth > 0 then
      if depth = 1 then
        let (s', replaced) := closeParentheses isMath s held.reverse
        let (s'', t) := softScan isMath s' (some c) 0 [] cs
        (s'', replaced ++ t)
      else softScan isMath s (some c) (depth - 1) (c :: held) cs
    else if depth > 0 then softScan isMath s (some c) depth (c :: held) cs
    else
      let (s', t) := softScan isMath s (some c) 0 held cs
      (s', c :: t)

/-- Sets aside what stands in plain parentheses and looks like a formula. -/
def extractSoft (isMath : Text → Bool) (s : Store) (t : Text) : Store × Text :=
  softScan isMath s none 0 [] t

end Store

/-- What counts as a formula in plain parentheses. -/
structure SoftParentheses where
  /-- Whether formulas are looked for there at all. -/
  enabled : Bool
  isMath : Text → Bool

/-- Sets aside all formulas of a text, beside what `s` holds already. Gives the text with
placeholders in their places. -/
def protectWith (soft : SoftParentheses) (s : Store) (t : Text) : Store × Text :=
  let (s, t) := s.extractCode fencedCode t
  let (s, t) := s.extractCode codeSpan t
  let (s, t) := s.extractRendered t
  let (s, t) := s.extractBracketBlocks t
  let (s, t) := s.extractForm environment .block t
  let (s, t) := s.extractForm displayBracket .block t
  let (s, t) := s.extractForm displayDollar .block t
  let (s, t) := s.extractForm inlineParenthesis .inline t
  let (s, t) := s.extractForm inlineDollar .inline t
  let (s, t) := if soft.enabled then s.extractSoft soft.isMath t else (s, t)
  (s, Store.restoreCode s.code t)

/-- The text with placeholders for its formulas, and the formulas. -/
def protect (softParentheses : Bool) (t : Text) : Text × List Entry :=
  let (s, carrier) := protectWith ⟨softParentheses, looksLikeMath⟩ Store.empty t
  (carrier, s.spans)

/-- The text with each word of a list replaced, one word after the other. -/
def restore (replacements : List (Text × Text)) (t : Text) : Text :=
  replacements.foldl (fun t r => Text.replaceAll r.1 r.2 t) t

end OfficeFormula.Span
