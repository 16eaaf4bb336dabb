import OfficeFormula.Text.Blank

/-!
# Broken line breaks

A row of a formula ends in two backslashes. Where a line ends in a single one, the second has been
lost, and `repairLineBreaks` puts it back.
-/

namespace OfficeFormula.Latex

/-- The repair of a text that `previous` stands before. -/
def repairAfter (previous : Option Char) (t : Text) : Text :=
  match t with
  | [] => []
  | c :: cs =>
    if c = '\\' ∧ previous ≠ some '\\' then
      match h : Text.afterLineEnd? cs with
      | some rest =>
        have := Text.length_lt_of_afterLineEnd? h
        '\\' :: '\\' :: '\n' :: repairAfter (some '\n') rest
      | none => c :: repairAfter (some c) cs
    else c :: repairAfter (some c) cs
termination_by t.length

/-- A single backslash at the end of a line is doubled, and the blanks after it are dropped. -/
def repairLineBreaks (formula : Text) : Text := repairAfter none formula

end OfficeFormula.Latex
