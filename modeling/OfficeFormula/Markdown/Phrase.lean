import OfficeFormula.Markdown.Emphasis
import OfficeFormula.Markdown.Link
import OfficeFormula.Markdown.Reference
import OfficeFormula.Span.Code

/-!
# Reading running text

`phrase` recognises one kind of element after the other: code and escaped characters, links, images,
addresses, line breaks, markup and character references, struck text, and emphasis. The content of
an element is read for the kinds that come after its own.
-/

namespace OfficeFormula.Markdown

/-- A span of code at the head of the text: what it holds, and how many characters it takes. Of the
backticks before it, as many are its mark as there are after it. -/
def codeAt? (t : Text) : Option (Text × Nat) :=
  let run := (t.takeWhile (· = '`')).length
  (List.range run).findSome? fun i =>
    let n := run - i
    match t.drop n with
    | [] => none
    | c :: cs => (Span.beforeTicks? Text.anyChar n c cs).map fun content =>
        (Text.trim (c :: content), n + 1 + content.length + n)

/-- The entries of a text: its code, its escaped characters and all its other characters. -/
def entries (d : Dialect) : Text → List Inline
  | [] => []
  | c :: cs =>
    match codeAt? (c :: cs) with
    | some (content, n) => .code content :: entries d (cs.drop (n - 1))
    | none =>
      if c = '\\' && cs.head?.any d.isEscapable then
        .text (cs.take 1) :: entries d (cs.drop 1)
      else .char c :: entries d cs
termination_by t => t.length
decreasing_by all_goals simp; try omega

/-- Two spaces at the end of a line. -/
def hardBreak : Form := fun _ ps =>
  match ps with
  | p :: q :: r :: _ =>
    if p.isChar ' ' && q.isChar ' ' && r.isChar '\n' then some (.lineBreak, 3) else none
  | _ => none

/-- The characters before the first `stop`, with nothing but characters there. -/
def charsBefore? (stop : Char) : List Inline → Option Text
  | [] => none
  | .char c :: ps => if c = stop then some [] else (charsBefore? stop ps).map (c :: ·)
  | _ => none

/-- The address of a page: what it begins with tells it from a tag. -/
def isPageAddress (t : Text) : Bool :=
  ["http://", "https://", "ftp://", "ftps://"].any fun start =>
    Text.startsWith start.toList (t.map Char.toLower)

/-- An address in angle brackets, which is a link to itself. -/
def addressForm : Form := fun _ ps =>
  match ps with
  | .char '<' :: rest => do
    let address ← charsBefore? '>' rest
    if isPageAddress address && !(List.contains address '<') then
      return (.link address none [.text address], address.length + 2)
    else none
  | _ => none

/-- What stands between the angle brackets of a tag or a comment. -/
def isTagContent (t : Text) : Bool :=
  let name := match t with
    | '/' :: cs => cs
    | cs => cs
  (name.head?.any isAsciiLetter && !(name.takeWhile (· ≠ ' ')).contains '@'
    && !(List.contains t '<'))
    || (Text.startsWith "!--".toList t && Text.startsWith "--".toList t.reverse && 5 ≤ t.length)

/-- A tag or a comment. -/
def tagForm : Form := fun _ ps =>
  match ps with
  | .char '<' :: rest => do
    let content ← charsBefore? '>' rest
    if isTagContent content then
      return (.raw ('<' :: content ++ ['>']), content.length + 2)
    else none
  | _ => none

/-- A character reference. -/
def referenceForm : Form := fun _ ps =>
  match ps with
  | .char '&' :: rest => do
    let name ← charsBefore? ';' rest
    if isReferenceName name then return (.raw ('&' :: name ++ [';']), name.length + 2) else none
  | _ => none

/-- Marks of emphasis that stand alone between blanks, and mark nothing. -/
def loneMarks : Form := fun previous ps =>
  match ps with
  | .char c :: _ =>
    let n := (ps.takeWhile (Inline.isChar c)).length
    let alone := (previous.all Inline.isBlankChar) && ((ps.drop n).head?.all Inline.isBlankChar)
    if (c = '*' || c = '_') && n ≤ 3 && alone then some (.text (List.replicate n c), n) else none
  | _ => none

/-- A neighbour of struck text: neither a character of a word nor a tilde. -/
def isOutsideStruck (p : Option Inline) : Bool :=
  p.any (Inline.isChar '_') || !(p.any fun i => i.isWordPart || i.isChar '~')

/-- Struck text, between double tildes. -/
def deletedForm (later : List Inline → List Inline) : Form := fun previous ps =>
  let body := ps.drop 2
  if startsWithMarks '~' 2 ps && isOutsideStruck previous
      && !(body.head?.any fun p => p.isBlankChar || p.isChar '~') then
    shortest₁? (fun n rest =>
      if startsWithMarks '~' 2 rest && isOutsideStruck (rest.drop 2).head?
          && !((entryBefore n body).any Inline.isBlankChar) then
        some (.deleted (later (body.take n)), n + 4)
      else none) body
  else none

/-- Lowered text, between single tildes and without blanks. -/
def subscriptForm (later : List Inline → List Inline) : Form := fun previous ps =>
  let body := ps.drop 1
  let content := body.takeWhile fun p => !p.isChar '~' && !p.isBlankChar
  let rest := body.drop content.length
  if startsWithMarks '~' 1 ps && !(previous.any (Inline.isChar '~')) && content ≠ []
      && startsWithMarks '~' 1 rest && !startsWithMarks '~' 2 rest
  then some (.subscript (later content), content.length + 2)
  else none

/-- A form, and another one where the first recognises nothing. -/
def eitherForm (f g : Form) : Form := fun previous ps =>
  match f previous ps with
  | some found => some found
  | none => g previous ps

/-- Running text without the blanks between a line break and an element, or the end, after it.
`pending` are blanks that may go. -/
def dropBlanksAfterBreaks (afterBreak : Bool) (pending : List Inline) : List Inline → List Inline
  | [] => []
  | i :: is =>
    if afterBreak && i.isBlankText then dropBlanksAfterBreaks true (pending ++ [i]) is
    else (if i.isTextual then pending else []) ++ i ::
      dropBlanksAfterBreaks (match i with | .lineBreak => true | _ => false) [] is

/-- Line ends as line breaks, where the dialect has it so. -/
def breakLines (d : Dialect) (ps : List Inline) : List Inline :=
  dropBlanksAfterBreaks false [] (match d with
    | .basic => ps
    | .extended => ps.map fun p => if p.isChar '\n' then .lineBreak else p)

/-- Reads emphasis and line ends. -/
def readEmphasis (d : Dialect) (ps : List Inline) : List Inline :=
  let underscores (ps : List Inline) : List Inline :=
    breakLines d (recogniseEmphasis '_' (breakLines d) ps)
  underscores (recogniseEmphasis '*' underscores ps)

/-- Reads struck and lowered text, and what comes after them. -/
def readStruck (d : Dialect) (ps : List Inline) : List Inline :=
  match d with
  | .basic => readEmphasis d ps
  | .extended => readEmphasis d
      (recognise (eitherForm (deletedForm (readEmphasis d)) (subscriptForm (readEmphasis d))) none
        ps)

/-- Reads all that comes after links. -/
def readAfterLinks (d : Dialect) (ps : List Inline) : List Inline :=
  let read (form : Form) (ps : List Inline) : List Inline := recognise form none ps
  readStruck d
    (read loneMarks (read referenceForm (read tagForm (read hardBreak (read addressForm
      (read imageForm ps))))))

/-- The elements of running text. -/
def phrase (d : Dialect) (t : Text) : List Inline :=
  readAfterLinks d (recognise (linkForm (readAfterLinks d)) none (entries d t))

end OfficeFormula.Markdown
