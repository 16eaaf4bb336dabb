import OfficeFormula.Text.Basic

/-!
# Searching a text

How `startsWith`, `contains`, `occurrences` and `replaceAll` go through a text: a stretch in which nothing
that is looked for begins is passed over.
-/

namespace OfficeFormula.Text

theorem after?_self_append (start rest : Text) : after? start (start ++ rest) = some rest :=
  after?_eq_some_iff.2 rfl

theorem startsWith_iff_prefix {part t : Text} : startsWith part t = true ↔ part <+: t := by
  rw [startsWith_iff]
  constructor
  · rintro ⟨rest, rfl⟩
    exact List.prefix_append part rest
  · rintro ⟨rest, rfl⟩
    exact ⟨rest, rfl⟩

theorem hasSuffix_iff {p : Text → Bool} {t : Text} : hasSuffix p t = true ↔ ∃ u, u <:+ t ∧ p u = true := by
  induction t with
  | nil => simp [hasSuffix]
  | cons c cs ih => simp [hasSuffix, ih, List.suffix_cons_iff, or_and_right, exists_or]

/-- Texts are searched for stretches. -/
theorem contains_iff_infix {part t : Text} : contains part t = true ↔ part <:+: t := by
  rw [contains, hasSuffix_iff, List.infix_iff_prefix_suffix]
  simp only [and_comm, startsWith_iff_prefix]

/-- What is taken and what is left make up the text. -/
theorem eq_takeWhile_append_drop (p : Char → Bool) (t : Text) :
    t = t.takeWhile p ++ t.drop (t.takeWhile p).length := by
  obtain ⟨rest, h⟩ := List.takeWhile_prefix p (l := t)
  have drop : (t.takeWhile p ++ rest).drop (t.takeWhile p).length = rest := List.drop_left
  rw [h] at drop
  rw [drop, h]

/-! ## Stretches -/

section Stretch

variable {allowed : Char → Bool} {stop : Text → Bool} {w t : Text}

theorem before?_isSome_of_stop (all : ∀ c ∈ w, allowed c = true) (stops : stop t = true) :
    (before? allowed stop (w ++ t)).isSome = true := by
  induction w with
  | nil => cases t <;> simp [before?, stops]
  | cons c w ih =>
    rw [List.forall_mem_cons] at all
    rw [List.cons_append, before?]
    split
    · rfl
    · simpa [all.1] using ih all.2

/-- Something to stop at is found exactly if nothing stands before it that may not. -/
theorem before?_isSome_iff : (before? allowed stop t).isSome = true ↔
    ∃ w rest, t = w ++ rest ∧ (∀ c ∈ w, allowed c = true) ∧ stop rest = true := by
  constructor
  · induction t with
    | nil =>
      intro h
      rw [before?] at h
      split at h
      · next stops => exact ⟨[], [], rfl, by simp, stops⟩
      · simp at h
    | cons c cs ih =>
      intro h
      rw [before?] at h
      split at h
      · next stops => exact ⟨[], c :: cs, rfl, by simp, stops⟩
      · split at h
        · next may =>
          obtain ⟨w, rest, rfl, all, stops⟩ := ih (by simpa using h)
          exact ⟨c :: w, rest, rfl, by simpa [may] using all, stops⟩
        · simp at h
  · rintro ⟨w, rest, rfl, all, stops⟩
    exact before?_isSome_of_stop all stops

/-- Such a stretch may also be asked not to be empty. -/
theorem before₁?_isSome_iff : (before₁? allowed stop t).isSome = true ↔
    ∃ w rest, t = w ++ rest ∧ w ≠ [] ∧ (∀ c ∈ w, allowed c = true) ∧ stop rest = true := by
  cases t with
  | nil =>
    refine iff_of_false (by simp [before₁?]) ?_
    rintro ⟨w, rest, split, ne, -⟩
    exact ne (List.append_eq_nil_iff.1 split.symm).1
  | cons c cs =>
    rw [before₁?]
    split
    · next may =>
      rw [Option.isSome_map, before?_isSome_iff]
      constructor
      · rintro ⟨w, rest, rfl, all, stops⟩
        exact ⟨c :: w, rest, rfl, by simp, by simpa [may] using all, stops⟩
      · rintro ⟨w, rest, split, ne, all, stops⟩
        obtain ⟨d, w, rfl⟩ := List.exists_cons_of_ne_nil ne
        obtain ⟨rfl, rfl⟩ := List.cons.inj split
        exact ⟨w, rest, rfl, (List.forall_mem_cons.1 all).2, stops⟩
    · next barred =>
      refine iff_of_false (by simp) ?_
      rintro ⟨w, rest, split, ne, all, -⟩
      obtain ⟨d, w, rfl⟩ := List.exists_cons_of_ne_nil ne
      obtain ⟨rfl, -⟩ := List.cons.inj split
      exact barred (all c List.mem_cons_self)

end Stretch

/-! ## Up to a character -/

section Character

variable {c : Char} {w : Text}

theorem forall_ne_of_not_mem (h : c ∉ w) : ∀ d ∈ w, decide (d ≠ c) = true := fun d hd => by
  simpa using fun same : d = c => h (same ▸ hd)

theorem takeWhile_ne_append (h : c ∉ w) (t : Text) : (w ++ t).takeWhile (· ≠ c) = w ++ t.takeWhile (· ≠ c) :=
  List.takeWhile_append_of_pos (forall_ne_of_not_mem h)

theorem takeWhile_ne_append_cons (h : c ∉ w) (t : Text) : (w ++ c :: t).takeWhile (· ≠ c) = w := by
  rw [takeWhile_ne_append h, List.takeWhile_cons_of_neg (by simp), List.append_nil]

theorem takeWhile_ne_eq_self (h : c ∉ w) : w.takeWhile (· ≠ c) = w := by
  simpa using takeWhile_ne_append h []

theorem dropWhile_ne_append_cons (h : c ∉ w) (t : Text) : (w ++ c :: t).dropWhile (· ≠ c) = c :: t := by
  rw [List.dropWhile_append_of_pos (forall_ne_of_not_mem h), List.dropWhile_cons_of_neg (by simp)]

theorem dropWhile_ne_eq_nil (h : c ∉ w) : w.dropWhile (· ≠ c) = [] := by
  have all : (w ++ []).dropWhile (· ≠ c) = [] := List.dropWhile_append_of_pos (forall_ne_of_not_mem h)
  rwa [List.append_nil] at all

/-- A stretch without the character lies on one side of it. -/
theorem exists_of_append_cons_eq_append {x t y : Text} (without : c ∉ w) (h : y ++ c :: t = x ++ w) :
    ∃ more, t = more ++ w ∧ x = y ++ c :: more := by
  rcases List.append_eq_append_iff.1 h with ⟨more, rfl, behind⟩ | ⟨more, rfl, rfl⟩
  · cases more with
    | nil =>
      obtain rfl : c :: t = w := behind
      exact absurd (by simp) without
    | cons d ds =>
      obtain ⟨rfl, rfl⟩ := List.cons.inj behind
      exact ⟨ds, rfl, rfl⟩
  · exact absurd (by simp) without

end Character

/-! ## Occurrences -/

/-- How often a text has `part` in it, at whatever places. -/
def occurrences (part : Text) : Text → Nat
  | [] => 0
  | c :: cs => (if Text.startsWith part (c :: cs) then 1 else 0) + occurrences part cs

/-- How often some texts have `part` in them, all together. -/
def occurrencesIn (part : Text) : List Text → Nat
  | [] => 0
  | t :: ts => occurrences part t + occurrencesIn part ts

theorem occurrences_append_of_not {part w t : Text}
    (other : ∀ u, u <:+ w → u ≠ [] → ¬part <+: u ++ t) :
    occurrences part (w ++ t) = occurrences part t := by
  induction w with
  | nil => rfl
  | cons c cs ih =>
    have first : ¬part <+: c :: (cs ++ t) := other (c :: cs) List.suffix_rfl (by simp)
    rw [List.cons_append, occurrences, if_neg (by rwa [Text.startsWith_iff_prefix]), Nat.zero_add]
    exact ih fun u hu ne => other u (hu.trans (List.suffix_cons c cs)) ne

/-- What is looked for does not go across a character that it does not have. -/
theorem prefix_append_cons_iff {part : Text} {c : Char} (other : c ∉ part) {u t : Text} :
    part <+: u ++ c :: t ↔ part <+: u := by
  constructor
  · rintro ⟨rest, h⟩
    rcases List.append_eq_append_iff.1 h with ⟨more, rfl, _⟩ | ⟨more, rfl, split⟩
    · exact List.prefix_append part more
    · cases more with
      | nil => simp
      | cons d more =>
        rw [List.cons_append, List.cons.injEq] at split
        exact absurd (by simp [split.1]) other
  · intro h
    exact h.trans (List.prefix_append u _)

/-- A character that the part does not have divides a text. -/
theorem occurrences_append_cons {part : Text} (ne : part ≠ []) {c : Char} (other : c ∉ part) (s t : Text) :
    occurrences part (s ++ c :: t) = occurrences part s + occurrences part t := by
  have across (u : Text) : startsWith part (u ++ c :: t) = startsWith part u := by
    rw [Bool.eq_iff_iff, startsWith_iff_prefix, startsWith_iff_prefix, prefix_append_cons_iff other]
  induction s with
  | nil =>
    have first := across []
    rw [List.nil_append] at first ⊢
    simp only [occurrences, first]
    cases part with
    | nil => exact absurd rfl ne
    | cons p part => rfl
  | cons d s ih =>
    have first := across (d :: s)
    rw [List.cons_append] at first ⊢
    rw [occurrences, first, ih, occurrences, Nat.add_assoc]

/-! ## Replacement -/

theorem replaceAll_nil {part : Text} (ne : part ≠ []) (new : Text) : replaceAll part new [] = [] := by
  have none : after? part [] = none := by cases part <;> simp_all [after?]
  rw [replaceAll, dif_neg ne, replaceNonempty]
  split
  · next h => simp [none] at h
  · rfl

theorem replaceAll_append {part : Text} (ne : part ≠ []) (new rest : Text) :
    replaceAll part new (part ++ rest) = new ++ replaceAll part new rest := by
  have some := after?_self_append part rest
  rw [replaceAll, replaceAll, dif_neg ne, dif_neg ne, replaceNonempty]
  split
  · next h =>
    rw [some, Option.some.injEq] at h
    subst h
    rfl
  · next h => simp [some] at h

theorem replaceAll_cons {part : Text} (ne : part ≠ []) (new : Text) {c : Char} {cs : Text}
    (other : ¬part <+: c :: cs) : replaceAll part new (c :: cs) = c :: replaceAll part new cs := by
  have none : after? part (c :: cs) = none := by
    rw [← startsWith_iff_prefix] at other
    simpa [startsWith] using other
  rw [replaceAll, replaceAll, dif_neg ne, dif_neg ne, replaceNonempty]
  split
  · next h => simp [none] at h
  · rfl

/-- Where `part` does not begin, nothing is replaced. -/
theorem replaceAll_append_of_not {part : Text} (ne : part ≠ []) (new : Text) {w t : Text}
    (other : ∀ u, u <:+ w → u ≠ [] → ¬part <+: u ++ t) :
    replaceAll part new (w ++ t) = w ++ replaceAll part new t := by
  induction w with
  | nil => rfl
  | cons c cs ih =>
    have first : ¬part <+: c :: (cs ++ t) := other (c :: cs) List.suffix_rfl (by simp)
    rw [List.cons_append, replaceAll_cons ne new first,
      ih fun u hu hne => other u (hu.trans (List.suffix_cons c cs)) hne]
    rfl

end OfficeFormula.Text
