import OfficeFormula.Text.Basic

/-!
# Reserved characters

The ampersand and the angle brackets mean something in markup and are written as references.
-/

namespace OfficeFormula.Markup

/-- A character as it is written in markup. -/
def escapeChar : Char → Text
  | '&' => "&amp;".toList
  | '<' => "&lt;".toList
  | '>' => "&gt;".toList
  | c => [c]

/-- Text as it is written in markup. -/
def escape (t : Text) : Text := t.flatMap escapeChar

theorem escape_cons (c : Char) (t : Text) : escape (c :: t) = escapeChar c ++ escape t := rfl

/-- Text without reserved characters is written as it is. -/
theorem escape_eq_self {t : Text} (h : ∀ c ∈ ['&', '<', '>'], c ∉ t) : escape t = t := by
  induction t with
  | nil => rfl
  | cons c cs ih =>
    have first : ∀ d ∈ ['&', '<', '>'], c ≠ d := fun d hd same => h d hd (same ▸ List.mem_cons_self)
    have same : escapeChar c = [c] := by
      unfold escapeChar
      split
      · exact absurd rfl (first '&' (by decide))
      · exact absurd rfl (first '<' (by decide))
      · exact absurd rfl (first '>' (by decide))
      · rfl
    rw [escape_cons, same, ih fun d hd mem => h d hd (List.mem_cons_of_mem c mem)]
    rfl

end OfficeFormula.Markup
