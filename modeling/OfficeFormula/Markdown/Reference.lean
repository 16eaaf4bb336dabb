import OfficeFormula.Span.Scan
import OfficeFormula.Text.Digit
import OfficeFormula.Text.Fold
import OfficeFormula.Text.Word

/-!
# Character references in Markdown

A reference stays as it is written, so that a browser resolves it. Any name will do, whether a
character has it or not.
-/

namespace OfficeFormula.Markdown

/-- A hexadecimal digit. -/
def isHexDigit (c : Char) : Bool :=
  isAsciiDigit c || ('a' ≤ c && c ≤ 'f') || ('A' ≤ c && c ≤ 'F')

/-- The name or the number of a character. -/
def isReferenceName (t : Text) : Bool :=
  match t with
  | '#' :: 'x' :: digits | '#' :: 'X' :: digits => digits ≠ [] && digits.all isHexDigit
  | '#' :: digits => digits ≠ [] && digits.all isAsciiDigit
  | name => name ≠ [] && name.all fun c => isAsciiDigit c || isAsciiLetter (foldCase c)

/-- What follows an ampersand makes it a reference. -/
def startsReference (t : Text) : Bool :=
  isReferenceName (t.takeWhile (· ≠ ';')) && List.contains t ';'

/-- A number that stands for a character, with the semicolon after it left out. -/
def openReference : Span.Recogniser := fun _ t => do
  let number ← Text.after? "&#".toList t
  let digits := match number with
    | 'x' :: cs | 'X' :: cs => cs.takeWhile isHexDigit
    | cs => cs.takeWhile isAsciiDigit
  let mark := if number.head?.any isAsciiDigit then 0 else 1
  match number.drop (mark + digits.length) with
  | [] => none
  | c :: _ =>
    if digits = [] || isHexDigit c || c = ';' then none
    else
      let length := 2 + mark + digits.length
      some ⟨length, t.take length ++ [';']⟩

/-- The text with a semicolon after every number that stands for a character. -/
def closeReferences (t : Text) : Text := Span.replaceFound openReference t

end OfficeFormula.Markdown
