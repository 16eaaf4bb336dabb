import OfficeFormula.Text.Fold
import OfficeFormula.Text.Word

/-!
# Letters in either case

Only letters change with their case, and they stay letters.
-/

namespace OfficeFormula

theorem isAsciiLetter_iff {c : Char} :
    isAsciiLetter c = true ↔ 97 ≤ c.toNat ∧ c.toNat ≤ 122 ∨ 65 ≤ c.toNat ∧ c.toNat ≤ 90 := by
  simp [isAsciiLetter, Char.le_def, UInt32.le_iff_toNat_le, ← Char.toNat_val]

theorem toLower_cases (c : Char) :
    c.toLower = c ∨ isAsciiLetter c = true ∧ isAsciiLetter c.toLower = true := by
  unfold Char.toLower
  split
  · next upper =>
    have low : 65 ≤ c.toNat := UInt32.le_iff_toNat_le.1 upper.1
    have high : c.toNat ≤ 90 := UInt32.le_iff_toNat_le.1 upper.2
    refine .inr ⟨isAsciiLetter_iff.2 (.inr ⟨low, high⟩), isAsciiLetter_iff.2 (.inl ?_)⟩
    simp
    omega
  · exact .inl rfl

theorem eq_of_toLower_eq {c d : Char} (h : c.toLower = d) (other : isAsciiLetter d = false) : c = d := by
  rcases toLower_cases c with same | ⟨_, letter⟩
  · exact same.symm.trans h
  · rw [h, other] at letter
    simp at letter

/-- A character that counts as no letter of a keyword stands for itself. -/
theorem eq_of_foldCase_eq {c d : Char} (h : foldCase c = d) (other : isAsciiLetter d = false) : c = d := by
  unfold foldCase at h
  split at h
  · exact absurd other (h ▸ by decide)
  · split at h
    · exact absurd other (h ▸ by decide)
    · split at h
      · exact absurd other (h ▸ by decide)
      · exact eq_of_toLower_eq h other

/-- What counts as a letter of a keyword is a letter of ASCII, where no other character does. -/
theorem isAsciiLetter_of_foldCase_eq {c d : Char} (h : foldCase c = d) (letter : isAsciiLetter d = true)
    (only : d ∉ ['s', 'k', 'i']) : isAsciiLetter c = true := by
  unfold foldCase at h
  split at h
  · exact absurd (h ▸ by decide) only
  · split at h
    · exact absurd (h ▸ by decide) only
    · split at h
      · exact absurd (h ▸ by decide) only
      · rcases toLower_cases c with same | ⟨letter, _⟩
        · rwa [← same, h]
        · exact letter

/-- A text that begins with a keyword begins with a spelling of it. -/
theorem Text.startsWithWord_iff {word t : Text} :
    startsWithWord word t = true ↔ ∃ m rest, t = m ++ rest ∧ m.map foldCase = word := by
  constructor
  · intro h
    obtain ⟨rest, after⟩ := Option.isSome_iff_exists.1 h
    obtain ⟨m, split, folded⟩ := exists_append_of_afterWord? after
    exact ⟨m, rest, split, folded⟩
  · rintro ⟨m, rest, rfl, folded⟩
    rw [startsWithWord, afterWord?_append folded]
    rfl

end OfficeFormula
