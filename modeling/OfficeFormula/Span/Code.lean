import OfficeFormula.Span.Scan
import OfficeFormula.Text.Blank

/-!
# Code in Markdown

Code is found in two forms: a block between lines of backticks or tildes, and a span between runs
of backticks on one line. Formulas are not looked for inside code.
-/

namespace OfficeFormula.Span

/-- A line that holds `n` times the character `c`, and spaces and tabs around. -/
def isFenceLine (c : Char) (n : Nat) (line : Text) : Bool :=
  let bare := line.dropWhile isTabOrSpace
  bare.take n = List.replicate n c && (bare.drop n).all isTabOrSpace

/-- The beginning of a text up to the end of its first line of which `p` holds. -/
def throughLine? (p : Text → Bool) (t : Text) : Option Text :=
  let lines := Text.lines t
  (lines.findIdx? p).map fun i => Text.join ['\n'] (lines.take (i + 1))

/-- The lengths that the opening fence may have: all of a run of `n`, or a shorter part of it, but
three at least. -/
def fenceLengths (n : Nat) : List Nat := (List.range (n - 2)).map (n - ·)

/-- A block of code: a line that begins with at least three backticks or tildes, up to a line with
just as many. -/
def fencedCode : Recogniser := fun previous t =>
  if atLineStart previous then
    let opening := t.takeWhile Text.notNewline
    match opening.dropWhile isTabOrSpace, t.drop opening.length with
    | c :: cs, _ :: below =>
      if c = '`' || c = '~' then
        let run := (c :: cs).takeWhile (· = c)
        ((fenceLengths run.length).findSome? fun n => throughLine? (isFenceLine c n) below).map
          fun body => ⟨opening.length + 1 + body.length, []⟩
      else none
    | _, _ => none
  else none

/-- The stretch of `allowed` characters before a run of exactly `n` backticks; `previous` stands
before the text. -/
def beforeTicks? (allowed : Char → Bool) (n : Nat) (previous : Char) : Text → Option Text
  | [] => none
  | c :: cs =>
    if previous ≠ '`' && ((c :: cs).takeWhile (· = '`')).length = n then some []
    else if allowed c then (beforeTicks? allowed n c cs).map (c :: ·)
    else none

/-- A span of code: something between two equally long runs of backticks, on one line. -/
def codeSpan : Recogniser := fun previous t =>
  if previous = some '`' || previous = some '\\' then none
  else
    let n := (t.takeWhile (· = '`')).length
    if n = 0 then none
    else
      match t.drop n with
      | [] => none
      | c :: cs =>
        if c = '\n' then none
        else (beforeTicks? Text.notNewline n c cs).map fun content =>
          ⟨n + 1 + content.length + n, []⟩

end OfficeFormula.Span
