import OfficeFormula.Text.Printable

/-!
# Quoted text

The form in which a message quotes a value: in single quotes, or in double quotes if the value has a
single quote and no double one. What does not print is escaped.
-/

namespace OfficeFormula.Text

/-- The hexadecimal digits of a number, in at least `width` places. -/
def hexDigits (width n : Nat) : Text :=
  let digits := Nat.toDigits 16 n
  List.replicate (width - digits.length) '0' ++ digits

/-- The escape of a character that does not print. -/
def escapeUnprintable (c : Char) : Text :=
  let n := c.toNat
  if n < 0x100 then "\\x".toList ++ hexDigits 2 n
  else if n < 0x10000 then "\\u".toList ++ hexDigits 4 n
  else "\\U".toList ++ hexDigits 8 n

/-- A character between quotes of one kind. -/
def quoteChar (quote c : Char) : Text :=
  if c = quote ∨ c = '\\' then ['\\', c]
  else if c = '\n' then "\\n".toList
  else if c = '\r' then "\\r".toList
  else if c = '\t' then "\\t".toList
  else if isPrintable c then [c]
  else escapeUnprintable c

/-- The text in quotes. -/
def quoted (t : Text) : Text :=
  let quote := if List.contains t '\'' && !List.contains t '"' then '"' else '\''
  quote :: t.flatMap (quoteChar quote) ++ [quote]

end OfficeFormula.Text
