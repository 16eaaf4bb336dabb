import OfficeFormula.Span.Scan
import OfficeFormula.Text.Digit

/-!
# Placeholders

A word that stands for something set aside. It has no character that means anything to Markdown.
Code and formulas are numbered apart and have different words.
-/

namespace OfficeFormula.Span

/-- What every placeholder begins with. -/
def placeholderStart : Text := "MATHPASTE".toList

/-- What every placeholder ends with. -/
def placeholderEnd : Text := "PLACEHOLDER".toList

/-- The decimal digits of a number. -/
def decimal (n : Nat) : Text := Nat.toDigits 10 n

/-- The placeholder of the formula with this number. -/
def placeholder (i : Nat) : Text := placeholderStart ++ decimal i ++ placeholderEnd

/-- The placeholder of the code with this number. -/
def codePlaceholder (i : Nat) : Text :=
  placeholderStart ++ "CODE".toList ++ decimal i ++ placeholderEnd

/-- Anything in the form of a placeholder of a formula. -/
def placeholderForm : Recogniser := fun _ t => do
  let rest ← Text.after? placeholderStart t
  let digits := rest.takeWhile isAsciiDigit
  if digits = [] then none
  else
    let _ ← Text.after? placeholderEnd (rest.drop digits.length)
    let length := placeholderStart.length + digits.length + placeholderEnd.length
    return ⟨length, t.take length⟩

/-- Everything in the text that has the form of a placeholder. -/
def placeholdersIn (t : Text) : List Text :=
  (segments placeholderForm t).filterMap fun
    | .plain _ => none
    | .found _ word => some word

end OfficeFormula.Span
