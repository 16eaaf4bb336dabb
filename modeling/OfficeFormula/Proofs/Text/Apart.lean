import OfficeFormula.Proofs.Text.Search

/-!
# Texts that words do not overlap

Replacing a word in `a ++ t ++ b` is replacing it in the three parts, if no occurrence of the word goes
across an end of `t` (`EndsApart.replaceAll_append`, `BeginsApart`). That depends on `t` and the word
only, and a text in which something of that kind has been put in place of other words is of that kind
again (`Apart.replaceAll`).
-/

namespace OfficeFormula.Text

/-- Whatever stands before `t`, no occurrence of `w` begins there and goes into `t`: what is left of a
word that has begun neither begins `t` nor goes on behind it. -/
def BeginsApart (w t : Text) : Prop := ∀ y, y <:+ w → y ≠ w → ¬t <+: y ∧ (y <+: t → y = [])

/-- Whatever stands behind `t`, an occurrence of `w` that begins in `t` ends in it. -/
def EndsApart (w t : Text) : Prop := ∀ x, x <:+ t → x ≠ [] → x <+: w → x = w

/-- Occurrences of `w` overlap neither end of `t`. -/
structure Apart (w t : Text) : Prop where
  begins : BeginsApart w t
  ends : EndsApart w t

theorem EndsApart.of_suffix {w t u : Text} (ends : EndsApart w t) (suffix : u <:+ t) : EndsApart w u :=
  fun x h => ends x (h.trans suffix)

/-- Occurrences that begin in `t` are replaced in it, and all others behind it. -/
theorem EndsApart.replaceAll_append {w t : Text} (ends : EndsApart w t) (ne : w ≠ []) (new rest : Text) :
    replaceAll w new (t ++ rest) = replaceAll w new t ++ replaceAll w new rest := by
  by_cases found : w <+: t
  · obtain ⟨u, split⟩ := found
    have shorter : u.length < t.length := by
      have long := List.length_pos_iff.2 ne
      rw [← split, List.length_append]
      omega
    have ih := (ends.of_suffix ⟨w, split⟩).replaceAll_append ne new rest
    rw [← split, List.append_assoc, Text.replaceAll_append ne, Text.replaceAll_append ne, ih,
      List.append_assoc]
  · cases t with
    | nil => rw [replaceAll_nil ne, List.nil_append, List.nil_append]
    | cons c u =>
      have ih := (ends.of_suffix (List.suffix_cons c u)).replaceAll_append ne new rest
      have later : ¬w <+: c :: (u ++ rest) := by
        intro h
        rcases List.prefix_or_prefix_of_prefix h (List.prefix_append (c :: u) rest) with h | h
        · exact found h
        · exact found (ends _ List.suffix_rfl (by simp) h ▸ List.prefix_rfl)
      rw [List.cons_append, replaceAll_cons ne new later, ih, replaceAll_cons ne new found,
        List.cons_append]
termination_by t.length

/-! ## Replacing other words -/

section Replacing

variable {w word new : Text} (ne : word ≠ [])

/-- What is left of a proper part of `w` is one too. -/
theorem proper_of_cons {c : Char} {y : Text} (suffix : c :: y <:+ w) : y <:+ w ∧ y ≠ w := by
  refine ⟨(List.suffix_cons c y).trans suffix, ?_⟩
  rintro rfl
  exact absurd suffix.length_le (by simp)

include ne

/-- What goes on with the rest of `w` after a replacement has done so before it. -/
theorem BeginsApart.prefix_of_prefix_replaceAll (begins : BeginsApart w new) {y t : Text}
    (suffix : y <:+ w) (proper : y ≠ w) (h : y <+: replaceAll word new t) : y <+: t := by
  induction t generalizing y with
  | nil => rwa [replaceAll_nil ne] at h
  | cons c t ih =>
    by_cases found : word <+: c :: t
    · obtain ⟨rest, split⟩ := found
      rw [← split, replaceAll_append ne] at h
      obtain ⟨shorter, longer⟩ := begins y suffix proper
      rcases List.prefix_or_prefix_of_prefix h (List.prefix_append new _) with h | h
      · rw [longer h]
        exact List.nil_prefix
      · exact absurd h shorter
    · rw [replaceAll_cons ne new found] at h
      cases y with
      | nil => exact List.nil_prefix
      | cons d y =>
        rw [List.cons_prefix_cons] at h ⊢
        obtain ⟨suffix', proper'⟩ := proper_of_cons suffix
        exact ⟨h.1, ih suffix' proper' h.2⟩

/-- Nothing has been replaced in what goes into the rest of `w`. -/
theorem BeginsApart.replaceAll_eq_of_prefix (begins : BeginsApart w new) {y t : Text}
    (suffix : y <:+ w) (proper : y ≠ w) (h : replaceAll word new t <+: y) : replaceAll word new t = t := by
  induction t generalizing y with
  | nil => exact replaceAll_nil ne new
  | cons c t ih =>
    by_cases found : word <+: c :: t
    · obtain ⟨rest, split⟩ := found
      rw [← split, replaceAll_append ne] at h
      exact absurd ((List.prefix_append new _).trans h) (begins y suffix proper).1
    · rw [replaceAll_cons ne new found] at h ⊢
      cases y with
      | nil => simp at h
      | cons d y =>
        obtain ⟨suffix', proper'⟩ := proper_of_cons suffix
        rw [ih suffix' proper' (List.cons_prefix_cons.1 h).2]

theorem BeginsApart.replaceAll (begins : BeginsApart w new) {t : Text} (old : BeginsApart w t) :
    BeginsApart w (Text.replaceAll word new t) := by
  intro y suffix proper
  constructor
  · intro h
    rw [begins.replaceAll_eq_of_prefix ne suffix proper h] at h
    exact (old y suffix proper).1 h
  · intro h
    exact (old y suffix proper).2 (begins.prefix_of_prefix_replaceAll ne suffix proper h)

theorem EndsApart.replaceAll (apart : Apart w new) {t : Text} (old : EndsApart w t) :
    EndsApart w (Text.replaceAll word new t) := by
  intro x suffix nonempty h
  by_cases found : word <+: t
  · obtain ⟨u, split⟩ := found
    have shorter : u.length < t.length := by
      have long := List.length_pos_iff.2 ne
      rw [← split, List.length_append]
      omega
    have ih := EndsApart.replaceAll apart (old.of_suffix ⟨word, split⟩)
    rw [← split, Text.replaceAll_append ne] at suffix
    rcases List.suffix_or_suffix_of_suffix suffix (List.suffix_append new _) with behind | ⟨x', rfl⟩
    · exact ih x behind nonempty h
    · -- `x` begins with an end of `new`, which is all of `w`.
      by_cases ne' : x' = []
      · subst ne'
        exact ih _ List.suffix_rfl nonempty h
      · have whole := apart.ends x' (List.suffix_append_self_iff.1 suffix) ne'
          ((List.prefix_append x' _).trans h)
        exact h.eq_of_length_le (by simp [whole])
  · cases t with
    | nil =>
      rw [replaceAll_nil ne] at suffix
      exact absurd (List.suffix_nil.1 suffix) nonempty
    | cons c u =>
      have ih := EndsApart.replaceAll apart (old.of_suffix (List.suffix_cons c u))
      rw [replaceAll_cons ne new found, List.suffix_cons_iff] at suffix
      rcases suffix with rfl | suffix
      · -- Nothing has been replaced in `x`, which is the end of `t` that begins here.
        obtain ⟨y, split⟩ := h
        have proper := proper_of_cons (w := w) (c := c) ⟨[], split⟩
        have same := apart.begins.replaceAll_eq_of_prefix ne proper.1 proper.2 (List.prefix_append _ y)
        rw [same] at split ⊢
        exact old _ List.suffix_rfl (by simp) ⟨y, split⟩
      · exact ih x suffix nonempty h
termination_by t.length

theorem Apart.replaceAll (apart : Apart w new) {t : Text} (old : Apart w t) :
    Apart w (Text.replaceAll word new t) :=
  ⟨apart.begins.replaceAll ne old.begins, old.ends.replaceAll ne apart⟩

end Replacing

end OfficeFormula.Text
