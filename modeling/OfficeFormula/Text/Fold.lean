import OfficeFormula.Text.Basic

/-!
# Letter case of keywords

A keyword is written in lower case and found in a text whatever the case of its letters there. Four
characters outside ASCII count as a letter of a keyword too: the long s, the Kelvin sign and the two
Turkish letters i.
-/

namespace OfficeFormula

/-- The lower-case ASCII letter that a character counts as in a keyword, or the character itself. -/
def foldCase (c : Char) : Char :=
  if c = '\u017f' then 's'
  else if c = '\u212a' then 'k'
  else if c = '\u0130' || c = '\u0131' then 'i'
  else c.toLower

namespace Text

/-- What follows the keyword `word` in a text that begins with it, in whatever case. -/
def afterWord? : (word t : Text) → Option Text
  | [], t => some t
  | _ :: _, [] => none
  | w :: ws, c :: cs => if w = foldCase c then afterWord? ws cs else none

/-- The text begins with the keyword `word`, in whatever case. -/
def startsWithWord (word t : Text) : Bool := (afterWord? word t).isSome

theorem exists_append_of_afterWord? {word t rest : Text} (h : afterWord? word t = some rest) :
    ∃ found, t = found ++ rest ∧ found.map foldCase = word := by
  induction word generalizing t with
  | nil => exact ⟨[], by simpa [afterWord?] using h, rfl⟩
  | cons w ws ih =>
    cases t with
    | nil => simp [afterWord?] at h
    | cons c cs =>
      simp only [afterWord?] at h
      split at h
      · next hw =>
        obtain ⟨found, ht, hf⟩ := ih h
        exact ⟨c :: found, by simp [ht], by simp [hf, hw]⟩
      · simp at h

theorem afterWord?_append {found word : Text} (folded : found.map foldCase = word) (rest : Text) :
    afterWord? word (found ++ rest) = some rest := by
  induction found generalizing word with
  | nil => rw [← folded]; rfl
  | cons c found ih => rw [← folded, List.map_cons, List.cons_append, afterWord?, if_pos rfl, ih rfl]

end Text

end OfficeFormula
