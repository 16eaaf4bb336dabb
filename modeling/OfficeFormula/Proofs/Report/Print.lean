import Mathlib.Data.List.TFAE
import Mathlib.Data.List.TakeWhile
import Mathlib.Logic.Function.Iterate
import Mathlib.Tactic.TFAE
import OfficeFormula.Proofs.Report.Wrap
import OfficeFormula.Report.Print

/-!
# Where printing ends

The details of a message are wrapped in a loop: a turn puts out a piece and goes on with what is left of the
text (`remainder`). Where the loop does not end there is nothing to print, and `wrap` gives `none`
(`wrap_isSome_iff`).

A turn shortens the text where there is room for a character. In a terminal that is too narrow for the frame of
a box there is none, and the loop comes to a stand: it takes nothing off a text but newlines at its head, and the
text of a detail does not end with a newline (`stalls_remainder`). So a message is printed if and only if each of
its details has room or nothing to show (`print?_tfae`).
-/

namespace OfficeFormula.Report

/-! ## The loop -/

/-- What a turn of the loop leaves of a text. A cut at a negative place is counted from the end. -/
def remainder (width : Int) (t : Text) : Text :=
  match shortLine? width t with
  | some (_, rest) => rest
  | none => if 0 ≤ width then t.drop width.toNat else t.drop (t.length - width.natAbs)

/-- After some turns nothing is left. -/
def Ends (width : Int) (t : Text) : Prop := ∃ k, (remainder width)^[k] t = []

/-- Every turn leaves less than there was. -/
def Shortens (width : Int) (t : Text) : Prop :=
  ∀ k, (remainder width)^[k] t ≠ [] → ((remainder width)^[k + 1] t).length < ((remainder width)^[k] t).length

section Loop

variable {width : Int} {t : Text}

theorem remainder_of_shortLine? {line rest : Text} (h : shortLine? width t = some (line, rest)) :
    remainder width t = rest := by
  rw [remainder, h]

theorem remainder_of_none (h : shortLine? width t = none) (pos : 0 ≤ width) :
    remainder width t = t.drop width.toNat := by
  rw [remainder, h]
  exact if_pos pos

theorem shortLine?_nil (width : Int) : shortLine? width [] = none := by simp [shortLine?]

theorem remainder_nil (width : Int) : remainder width [] = [] := by
  rw [remainder, shortLine?_nil]
  simp

/-- With room for a character, a turn shortens what is left. -/
theorem length_remainder_lt (pos : 0 < width) (ne : t ≠ []) : (remainder width t).length < t.length := by
  cases h : shortLine? width t with
  | some found => exact remainder_of_shortLine? h ▸ length_lt_of_shortLine? h
  | none =>
    have some := List.length_pos_iff.2 ne
    rw [remainder_of_none h (Int.le_of_lt pos), List.length_drop]
    omega

theorem ends_nil (width : Int) : Ends width [] := ⟨0, rfl⟩

/-- A loop ends exactly if what is left after one round does. -/
theorem ends_remainder_iff : Ends width (remainder width t) ↔ Ends width t := by
  constructor
  · rintro ⟨k, h⟩
    exact ⟨k + 1, h⟩
  · rintro ⟨k, h⟩
    refine ⟨k, ?_⟩
    rw [← Function.iterate_succ_apply, Function.iterate_succ_apply', h, remainder_nil]

/-- A loop that shortens the text with every turn ends. -/
theorem Shortens.ends (shortens : Shortens width t) : Ends width t := by
  by_contra endless
  have left (k : Nat) : ((remainder width)^[k] t).length + k ≤ t.length := by
    induction k with
    | zero => rfl
    | succ k ih =>
      have := shortens k fun none => endless ⟨k, none⟩
      omega
  have := left t.length
  exact endless ⟨t.length, List.length_eq_zero_iff.1 (by omega)⟩

theorem shortens_of_pos (pos : 0 < width) (t : Text) : Shortens width t := by
  intro k ne
  rw [Function.iterate_succ_apply']
  exact length_remainder_lt pos ne

theorem shortens_nil (width : Int) : Shortens width [] := by
  intro k ne
  exact absurd (Function.iterate_fixed (remainder_nil width) k) ne

end Loop

/-! ## A loop without room -/

/-- The loop has no room and does not get through the text. At a negative width any character is in its way, at
width zero any but a newline. -/
def Stalls (width : Int) (t : Text) : Prop := width < 0 ∧ t ≠ [] ∨ width = 0 ∧ ∃ c ∈ t, c ≠ '\n'

theorem shortLine?_of_neg {width : Int} (neg : width < 0) (t : Text) : shortLine? width t = none := by
  rw [shortLine?]
  exact if_neg (by omega)

theorem shortLine?_zero_cons (c : Char) (cs : Text) :
    shortLine? 0 (c :: cs) = if c = '\n' then some ([], cs) else none := by
  by_cases newline : c = '\n' <;> simp [shortLine?, newline]

theorem Stalls.ne_nil {width : Int} {t : Text} (stalls : Stalls width t) : t ≠ [] := by
  rcases stalls with ⟨-, ne⟩ | ⟨-, c, hc, -⟩
  · exact ne
  · exact List.ne_nil_of_mem hc

/-- Without room a text stays, unless nothing but newlines is in it and the room is zero. -/
theorem stalls_of_not_pos {width : Int} {t : Text} (narrow : ¬0 < width) (ne : t ≠ [])
    (visible : width = 0 → ∃ c ∈ t, c ≠ '\n') : Stalls width t := by
  rcases Int.lt_or_eq_of_le (Int.not_lt.1 narrow) with neg | zero
  · exact .inl ⟨neg, ne⟩
  · exact .inr ⟨zero, visible zero⟩

/-- What a turn leaves is in the way as well. -/
theorem stalls_remainder {width : Int} {t : Text} (stalls : Stalls width t) : Stalls width (remainder width t) := by
  rcases stalls with ⟨neg, ne⟩ | ⟨rfl, c, hc, other⟩
  · have some := List.length_pos_iff.2 ne
    rw [remainder, shortLine?_of_neg neg]
    refine .inl ⟨neg, ?_⟩
    simp only [if_neg (Int.not_le.2 neg), ne_eq, List.drop_eq_nil_iff]
    omega
  · refine .inr ⟨rfl, ?_⟩
    obtain ⟨d, ds, rfl⟩ := List.exists_cons_of_ne_nil (List.ne_nil_of_mem hc)
    have short := shortLine?_zero_cons d ds
    split at short
    · next newline =>
      rw [remainder_of_shortLine? short]
      exact ⟨c, (List.mem_cons.1 hc).resolve_left fun same => other (same.trans newline), other⟩
    · rw [remainder_of_none short (Int.le_refl 0)]
      exact ⟨c, hc, other⟩

theorem Stalls.not_ends {width : Int} {t : Text} (stalls : Stalls width t) : ¬Ends width t := by
  rintro ⟨k, none⟩
  have always : Stalls width ((remainder width)^[k] t) := by
    clear none
    induction k with
    | zero => exact stalls
    | succ k ih =>
      rw [Function.iterate_succ_apply']
      exact stalls_remainder ih
  exact always.ne_nil none

/-- There are pieces if and only if the loop ends. -/
theorem wrapFrom_isSome_iff (width : Int) (n : Nat) (start : Bool) (t : Text) :
    (wrapFrom width n start t).isSome = true ↔ Ends width t := by
  fun_induction wrapFrom width n start t with
  | case1 => simp [ends_nil]
  | case2 n start t _ line rest short _ ih =>
    rw [Option.isSome_map, ih, ← remainder_of_shortLine? short, ends_remainder_iff]
  | case3 n start t _ long room _ ih =>
    rw [Option.isSome_map, ih, ← remainder_of_none long (Int.le_of_lt room), ends_remainder_iff]
  | case4 n start t ne long narrow =>
    have stalls : Stalls width t := by
      refine stalls_of_not_pos narrow ne ?_
      rintro rfl
      obtain ⟨c, cs, rfl⟩ := List.exists_cons_of_ne_nil ne
      rw [shortLine?_zero_cons] at long
      split at long
      · cases long
      · next other => exact ⟨c, List.mem_cons_self, other⟩
    simp [stalls.not_ends]

theorem wrap_isSome_iff (width : Int) (t : Text) : (wrap width t).isSome = true ↔ Ends width t := by
  rw [wrap]
  split
  · next empty => simp [empty, ends_nil]
  · exact wrapFrom_isSome_iff width 1 true t

/-! ## Details -/

/-- The room for the text of a detail in a terminal with that many columns. -/
def Detail.textWidth (columns : Int) (d : Detail) : Int :=
  if d.lineNumbers then columns - frameWidth - lineNumberWidth - 1 else columns - frameWidth

theorem trimEnd_eq_nil_iff {t : Text} : t.trimEnd = [] ↔ t.isAllBlank = true := by
  simp [Text.trimEnd, Text.isAllBlank, List.dropWhile_eq_nil_iff]

/-- The text of a detail does not end with a newline. -/
theorem exists_mem_trimEnd_ne {t : Text} (ne : t.trimEnd ≠ []) : ∃ c ∈ t.trimEnd, c ≠ '\n' := by
  have visible : isBlank (t.trimEnd.getLast ne) = false :=
    Text.isBlank_of_mem_getLast?_trimEnd (List.getLast?_eq_some_getLast ne)
  refine ⟨_, List.getLast_mem ne, fun newline => ?_⟩
  rw [newline] at visible
  exact absurd visible (by decide)

/-- What is printed ends exactly if it is blank or there is room. -/
theorem ends_trimEnd_iff {width : Int} {t : Text} : Ends width t.trimEnd ↔ t.isAllBlank = true ∨ 0 < width := by
  rw [← trimEnd_eq_nil_iff]
  constructor
  · intro ends
    by_contra h
    rw [not_or] at h
    exact (stalls_of_not_pos h.2 h.1 fun _ => exists_mem_trimEnd_ne h.1).not_ends ends
  · rintro (empty | pos)
    · rw [empty]
      exact ends_nil width
    · exact (shortens_of_pos pos _).ends

theorem shortens_trimEnd_iff {width : Int} {t : Text} :
    Shortens width t.trimEnd ↔ t.isAllBlank = true ∨ 0 < width := by
  constructor
  · exact fun shortens => ends_trimEnd_iff.1 shortens.ends
  · rintro (blank | pos)
    · rw [trimEnd_eq_nil_iff.2 blank]
      exact shortens_nil width
    · exact shortens_of_pos pos _

/-- The frame takes six columns, and line numbers five more. -/
theorem textWidth_pos_iff {columns : Int} {d : Detail} :
    0 < d.textWidth columns ↔ (if d.lineNumbers then 11 else 6) < columns := by
  rw [Detail.textWidth]
  split
  · simp only [frameWidth, lineNumberWidth]
    omega
  · simp only [frameWidth]
    omega

/-! ## Messages -/

theorem detailLines_isSome (columns : Int) (d : Detail) :
    (detailLines (columns - frameWidth) d).isSome = (wrap (d.textWidth columns) d.content.trimEnd).isSome := by
  rw [detailLines, Detail.textWidth]
  split
  · dsimp only
    cases wrap (columns - frameWidth - lineNumberWidth - 1) d.content.trimEnd <;> rfl
  · cases wrap (columns - frameWidth) d.content.trimEnd <;> rfl

theorem detailBoxes_isSome_iff {inner : Int} {ds : List Detail} :
    (detailBoxes inner ds).isSome = true ↔ ∀ d ∈ ds, (detailLines inner d).isSome = true := by
  fun_induction detailBoxes inner ds with
  | case1 => simp
  | case2 d =>
    rw [List.forall_mem_singleton]
    cases detailLines inner d <;> rfl
  | case3 d ds _ ih =>
    rw [List.forall_mem_cons, ← ih]
    cases detailLines inner d with
    | none => simp
    | some lines => cases detailBoxes inner ds <;> simp

theorem print?_isSome_iff {columns : Int} {m : Message} : (m.print? columns).isSome = true ↔
    ∀ d ∈ m.details, (wrap (d.textWidth columns) d.content.trimEnd).isSome = true := by
  simp only [← detailLines_isSome]
  rw [← detailBoxes_isSome_iff, Message.print?]
  split
  · next none => simp [none, detailBoxes]
  · cases detailBoxes (columns - frameWidth) m.details <;> simp

/-- A message is printed in full, every loop over a detail ends, and every turn of such a loop shortens what is
left, if and only if the terminal is wide enough for each detail that is not blank. -/
theorem print?_tfae (columns : Int) (m : Message) : List.TFAE [
    (m.print? columns).isSome = true,
    ∀ d ∈ m.details, Ends (d.textWidth columns) d.content.trimEnd,
    ∀ d ∈ m.details, Shortens (d.textWidth columns) d.content.trimEnd,
    ∀ d ∈ m.details, d.content.isAllBlank = true ∨ (if d.lineNumbers then 11 else 6) < columns] := by
  tfae_have 1 ↔ 2 := by simp only [print?_isSome_iff, wrap_isSome_iff]
  tfae_have 2 ↔ 4 := by simp only [ends_trimEnd_iff, textWidth_pos_iff]
  tfae_have 3 ↔ 4 := by simp only [shortens_trimEnd_iff, textWidth_pos_iff]
  tfae_finish

/-- A terminal of eleven columns has no room beside the number of a line, and the text stays what it was. No line
would be shown here, as none is near the highlighted one. -/
theorem print?_elevenColumns :
    (ErrorReport.message ⟨"mathpaste.latex".toList, "failed".toList, none, true, [], ['x'], [9], some 0⟩).print? 11 =
        none ∧
      ∀ k, (remainder 0)^[k] ['x'] = ['x'] :=
  ⟨by decide +kernel, fun k => Function.iterate_fixed (by decide) k⟩

end OfficeFormula.Report
