import OfficeFormula.Span.Scan
import OfficeFormula.Text.Blank
import OfficeFormula.Text.Word

/-!
# Written forms of formulas

How a formula is marked in a text: rendered markup between two comments, brackets on lines of their
own, environments, and the bracket and dollar delimiters. Each recogniser gives the formula without
its delimiters; an environment keeps them, on lines of their own.
-/

namespace OfficeFormula.Span

/-- The comment before rendered markup. -/
def renderedStart : Text := "<!--RENDERED_MATH_START-->".toList

/-- The comment after rendered markup. -/
def renderedEnd : Text := "<!--RENDERED_MATH_END-->".toList

/-- Rendered markup between its two comments. -/
def renderedMarkup : Recogniser := fun _ t => do
  let body ← Text.after? renderedStart t
  let content ← body.before? Text.anyChar (Text.startsWith renderedEnd)
  return ⟨renderedStart.length + content.length + renderedEnd.length, content⟩

/-- What follows a closing bracket that stands on a line of its own, at the end of the line before
it. -/
def afterClosingBracket? (t : Text) : Option Text := do
  let line ← Text.after? ['\n'] t
  let rest ← Text.after? [']'] (line.dropWhile isTabOrSpace)
  if atLineEnd rest then some rest else none

/-- Something between brackets that stand on lines of their own. -/
def bracketBlock : Recogniser := fun previous t => do
  if atLineStart previous then
    let line ← Text.after? ['['] t
    let body ← Text.afterLineEnd? line
    let content ← body.before₁? Text.anyChar fun u => (afterClosingBracket? u).isSome
    let rest ← afterClosingBracket? (body.drop content.length)
    return ⟨t.length - rest.length, content⟩
  else none

/-- A character of the name of an environment. -/
def isEnvironmentChar (c : Char) : Bool := isAsciiLetter c || c = '*'

/-- The command that opens an environment. -/
def beginText (name : Text) : Text := "\\begin\x7b".toList ++ name ++ ['}']

/-- The command that closes an environment. -/
def endText (name : Text) : Text := "\\end\x7b".toList ++ name ++ ['}']

/-- An environment, up to the first end of that name. -/
def environment : Recogniser := fun _ t => do
  let named ← Text.after? "\\begin\x7b".toList t
  let name := named.takeWhile isEnvironmentChar
  if name = [] then none
  else
    let body ← Text.after? ['}'] (named.drop name.length)
    let content ← body.before₁? Text.anyChar (Text.startsWith (endText name))
    return ⟨(beginText name).length + content.length + (endText name).length,
      beginText name ++ '\n' :: content.trim ++ '\n' :: endText name⟩

/-- The bracket that opens a displayed formula. -/
def displayOpen : Text := "\\[".toList

/-- The bracket that closes a displayed formula. -/
def displayClose : Text := "\\]".toList

/-- A displayed formula in brackets. A closing bracket right after the opening one, or after blanks
only, is part of the formula if another one follows. -/
def displayBracket : Recogniser := fun _ t => do
  let body ← Text.after? displayOpen t
  let blanks := body.takeWhile isBlank
  let inner : Text := body.dropWhile isBlank
  match inner.before₁? Text.anyChar (Text.startsWith displayClose) with
  | some content =>
    return ⟨displayOpen.length + blanks.length + content.length + displayClose.length, content.trim⟩
  | none =>
    if blanks ≠ [] && Text.startsWith displayClose inner then
      some ⟨displayOpen.length + blanks.length + displayClose.length, []⟩
    else none

/-- What stands at both ends of a displayed formula between dollar signs. -/
def doubleDollar : Text := "$$".toList

/-- A displayed formula between double dollar signs. -/
def displayDollar : Recogniser := fun _ t => do
  let body ← Text.after? doubleDollar t
  let content ← body.before₁? Text.anyChar (Text.startsWith doubleDollar)
  return ⟨doubleDollar.length + content.length + doubleDollar.length, content.trim⟩

/-- The parenthesis that opens a formula inside a line. -/
def inlineOpen : Text := "\\(".toList

/-- The parenthesis that closes a formula inside a line. -/
def inlineClose : Text := "\\)".toList

/-- A formula inside a line, in parentheses. -/
def inlineParenthesis : Recogniser := fun _ t => do
  let body ← Text.after? inlineOpen t
  let content ← body.before₁? Text.notNewline (Text.startsWith inlineClose)
  return ⟨inlineOpen.length + content.length + inlineClose.length, content.trim⟩

/-- The stretch before the next dollar sign that no backslash stands before, on the same line. -/
def beforeDollar? (previous : Char) : Text → Option Text
  | [] => none
  | c :: cs =>
    if c = '$' ∧ previous ≠ '\\' then some []
    else if c = '\n' then none
    else (beforeDollar? c cs).map (c :: ·)

/-- A formula inside a line, between single dollar signs that no backslash stands before. -/
def inlineDollar : Recogniser := fun previous t => do
  if previous = some '\\' then none
  else
    let body ← Text.after? ['$'] t
    let content ← beforeDollar? '$' body
    if content = [] then none else some ⟨content.length + 2, content.trim⟩

end OfficeFormula.Span
