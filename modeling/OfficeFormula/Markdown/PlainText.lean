import OfficeFormula.Span.Scan
import OfficeFormula.Text.Blank
import OfficeFormula.Text.Digit

/-!
# Markdown as plain text

`plainText` takes the marks of Markdown away. It knows nothing of how a document is built: each rule
replaces what looks like one kind of mark, wherever it stands, and the next rule sees the result.
-/

namespace OfficeFormula.Markdown

open OfficeFormula.Span (Recogniser)

/-- What stands between two marks and has no `stop` character; it is not empty. -/
def between (mark : String) (stop : Char) : Recogniser := fun _ t => do
  let body ← Text.after? mark.toList t
  let content := body.takeWhile (· ≠ stop)
  if content = [] then none
  else
    let _ ← Text.after? mark.toList (body.drop content.length)
    return ⟨2 * mark.length + content.length, content⟩

/-- A block of code. -/
def codeBlock : Recogniser := fun _ t => do
  let body ← Text.after? "```".toList t
  let content ← body.before? Text.anyChar (Text.startsWith "```".toList)
  return ⟨content.length + 6, "[code block]".toList⟩

/-- How long a link target in parentheses is; it is not empty. -/
def targetLength? (t : Text) : Option Nat := do
  let body ← Text.after? ['('] t
  let target := body.takeWhile (· ≠ ')')
  if target = [] || body.length = target.length then none else some (target.length + 2)

/-- Words in brackets and a target after them; gives the words and the length. -/
def linked? (t : Text) : Option (Text × Nat) := do
  let body ← Text.after? ['['] t
  let words := body.takeWhile (· ≠ ']')
  let rest ← Text.after? [']'] (body.drop words.length)
  let n ← targetLength? rest
  return (words, words.length + 2 + n)

/-- An image, for which its description stands. -/
def describedImage : Recogniser := fun _ t => do
  let body ← Text.after? ['!'] t
  let (words, n) ← linked? body
  return ⟨n + 1, "[image: ".toList ++ words ++ [']']⟩

/-- A link, for which its words stand. -/
def linkWords : Recogniser := fun _ t => do
  let (words, n) ← linked? t
  if words = [] then none else some ⟨n, words⟩

/-- The mark of a heading. -/
def headingMark : Recogniser := fun _ t =>
  let level := (t.takeWhile (· = '#')).length
  let blanks := ((t.drop level).takeWhile isTabOrSpace).length
  if 1 ≤ level && level ≤ 6 && 1 ≤ blanks then some ⟨level + blanks, []⟩ else none

/-- How long the marker of a list item and the blanks after it are, if `markerLength` finds one
after spaces and tabs at the beginning of a line. -/
def itemMark (markerLength : Text → Nat) (replacement : Text) : Recogniser := fun previous t =>
  if Span.atLineStart previous then
    let indent := (t.takeWhile isTabOrSpace).length
    let marker := markerLength (t.drop indent)
    let blanks := ((t.drop (indent + marker)).takeWhile isBlank).length
    if 1 ≤ marker && 1 ≤ blanks then some ⟨indent + marker + blanks, replacement⟩ else none
  else none

/-- The length of a bullet at the head of the text. -/
def bulletLength (t : Text) : Nat :=
  match t with
  | '-' :: _ | '*' :: _ | '+' :: _ => 1
  | _ => 0

/-- The length of a number and a period at the head of the text. -/
def numberLength (t : Text) : Nat :=
  let digits := (t.takeWhile isDecimalDigit).length
  if 1 ≤ digits && (t.drop digits).head? = some '.' then digits + 1 else 0

/-- More than one empty line. -/
def emptyLines : Recogniser := fun _ t =>
  let n := (t.takeWhile (· = '\n')).length
  if 3 ≤ n then some ⟨n, "\n\n".toList⟩ else none

/-- The rules, in the order in which they are applied. Images come before links, since an image is
written like a link after an exclamation mark. -/
def plainTextRules : List Recogniser := [
  codeBlock,
  between "`" '`',
  describedImage,
  linkWords,
  headingMark,
  between "**" '*',
  between "*" '*',
  between "__" '_',
  between "_" '_',
  between "~~" '~',
  itemMark bulletLength "• ".toList,
  itemMark numberLength [],
  emptyLines]

/-- The text without the marks of Markdown. -/
def plainText (t : Text) : Text :=
  (plainTextRules.foldl (fun t rule => Span.replaceFound rule t) t).trim

end OfficeFormula.Markdown
