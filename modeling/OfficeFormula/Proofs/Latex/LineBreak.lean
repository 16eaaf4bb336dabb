import Mathlib.Data.List.Basic
import OfficeFormula.Proofs.Latex.Source

/-!
# Repaired line breaks

The repair goes through a text character by character, and whether it acts on a backslash depends on the
character before it and on the blanks behind it. What it gives is told line by line: `mend` looks at one line
alone, and a repaired text has the lines of the text, mended where a newline ends them (`lines_repairAfter`).
Which lines are mended, and that none is left to be mended, is then a matter of single lines.
-/

namespace OfficeFormula.Latex

/-- The line is `start` and a single backslash, with nothing but spaces and tabs behind it. -/
def EndsSingly (line start : Text) : Prop :=
  start.getLast? ≠ some '\\' ∧ ∃ gap, (∀ c ∈ gap, c = ' ' ∨ c = '\t') ∧ line = start ++ '\\' :: gap

/-! ## Lines -/

/-- The repair of a line that `previous` stands before. -/
def mendAfter (previous : Option Char) : Text → Text
  | [] => []
  | c :: cs =>
    if c = '\\' ∧ previous ≠ some '\\' ∧ cs.all isTabOrSpace = true then ['\\', '\\']
    else c :: mendAfter (some c) cs

/-- The repair of a line. -/
def mend (line : Text) : Text := mendAfter none line

/-- The repair of the lines of a text. No newline ends the last one. -/
def mendAll : List Text → List Text
  | [] => []
  | [line] => [line]
  | line :: lines => mend line :: mendAll lines

theorem isTabOrSpace_iff {c : Char} : isTabOrSpace c = true ↔ c = ' ' ∨ c = '\t' := by
  simp [isTabOrSpace]

/-- It only matters whether a backslash stands before a line. -/
theorem mendAfter_eq_mend {previous : Option Char} (other : previous ≠ some '\\') (line : Text) :
    mendAfter previous line = mend line := by
  cases line with
  | nil => rfl
  | cons c cs => simp [mend, mendAfter, other]

/-- A single backslash at the end of a line is found whatever stands before it in the line. -/
theorem mendAfter_single {previous : Option Char} {start gap : Text}
    (single : (previous.toList ++ start).getLast? ≠ some '\\') (blanks : gap.all isTabOrSpace = true) :
    mendAfter previous (start ++ '\\' :: gap) = start ++ ['\\', '\\'] := by
  induction start generalizing previous with
  | nil =>
    have other : previous ≠ some '\\' := by
      rintro rfl
      exact single rfl
    rw [List.nil_append, mendAfter, if_pos ⟨rfl, other, blanks⟩]
    rfl
  | cons c cs ih =>
    have further : ¬(cs ++ '\\' :: gap).all isTabOrSpace = true := by
      rw [List.all_append, List.all_cons]
      have visible : isTabOrSpace '\\' = false := by decide
      simp [visible]
    have single' : ((some c).toList ++ cs).getLast? ≠ some '\\' := by
      rwa [List.getLast?_append_of_ne_nil _ (List.cons_ne_nil c cs)] at single
    rw [List.cons_append, mendAfter, if_neg fun h => further h.2.2, ih single', List.cons_append]

/-- A line that is changed ends in a single backslash. -/
theorem exists_of_mendAfter_ne {previous : Option Char} {line : Text} (h : mendAfter previous line ≠ line) :
    ∃ start gap, (previous.toList ++ start).getLast? ≠ some '\\' ∧ gap.all isTabOrSpace = true ∧
      line = start ++ '\\' :: gap := by
  induction line generalizing previous with
  | nil => exact absurd rfl h
  | cons c cs ih =>
    rw [mendAfter] at h
    split at h
    · next found =>
      obtain ⟨rfl, other, blanks⟩ := found
      refine ⟨[], cs, ?_, blanks, rfl⟩
      cases previous with
      | none => simp
      | some d => simpa using other
    · obtain ⟨start, gap, single, blanks, rfl⟩ := ih fun same => h (congrArg (c :: ·) same)
      refine ⟨c :: start, gap, ?_, blanks, rfl⟩
      rwa [List.getLast?_append_of_ne_nil _ (List.cons_ne_nil c start)]

theorem EndsSingly.mend_eq {line start : Text} (h : EndsSingly line start) : mend line = start ++ ['\\', '\\'] := by
  obtain ⟨single, gap, blanks, rfl⟩ := h
  exact mendAfter_single single (List.all_eq_true.2 fun c hc => isTabOrSpace_iff.2 (blanks c hc))

theorem mend_eq_self {line : Text} (h : ∀ start, ¬EndsSingly line start) : mend line = line := by
  refine Classical.not_not.1 fun changed => ?_
  obtain ⟨start, gap, single, blanks, split⟩ := exists_of_mendAfter_ne changed
  exact h start ⟨single, gap, fun c hc => isTabOrSpace_iff.1 (List.all_eq_true.1 blanks c hc), split⟩

/-- Two backslashes at the end of a line are not a single one. -/
theorem not_endsSingly_double (line start : Text) : ¬EndsSingly (line ++ ['\\', '\\']) start := by
  rintro ⟨single, gap, blanks, split⟩
  have split : (line ++ ['\\']) ++ ['\\'] = start ++ '\\' :: gap := by simpa using split
  rcases List.eq_nil_or_concat' gap with rfl | ⟨front, c, rfl⟩
  · obtain rfl := (List.append_inj' split rfl).1
    simp at single
  · rw [← List.cons_append, ← List.append_assoc] at split
    obtain rfl := (List.cons.inj (List.append_inj' split rfl).2).1
    simpa using blanks '\\' (by simp)

theorem not_endsSingly_mend (line start : Text) : ¬EndsSingly (mend line) start := by
  by_cases h : ∃ start', EndsSingly line start'
  · obtain ⟨start', h⟩ := h
    rw [h.mend_eq]
    exact not_endsSingly_double start' start
  · have other : ∀ start', ¬EndsSingly line start' := fun start' h' => h ⟨start', h'⟩
    rw [mend_eq_self other]
    exact other start

theorem mend_mend (line : Text) : mend (mend line) = mend line := mend_eq_self (not_endsSingly_mend line)

theorem newline_not_mem_mend {line : Text} (within : '\n' ∉ line) : '\n' ∉ mend line := by
  by_cases h : ∃ start, EndsSingly line start
  · obtain ⟨start, h⟩ := h
    rw [h.mend_eq]
    obtain ⟨-, gap, -, rfl⟩ := h
    have before : '\n' ∉ start := fun mem => within (List.mem_append_left _ mem)
    simp [before]
  · rwa [mend_eq_self fun start h' => h ⟨start, h'⟩]

theorem mendAll_cons (line : Text) {lines : List Text} (more : lines ≠ []) :
    mendAll (line :: lines) = mend line :: mendAll lines := by
  obtain ⟨next, lines, rfl⟩ := List.exists_cons_of_ne_nil more
  rfl

theorem length_mendAll (lines : List Text) : (mendAll lines).length = lines.length := by
  fun_induction mendAll lines with
  | case1 => rfl
  | case2 line => rfl
  | case3 line lines _ ih => rw [List.length_cons, ih, List.length_cons]

theorem getElem?_mendAll (lines : List Text) (i : Nat) :
    (mendAll lines)[i]? = if i + 1 < lines.length then lines[i]?.map mend else lines[i]? := by
  fun_induction mendAll lines generalizing i with
  | case1 => simp
  | case2 line => simp
  | case3 line lines more ih =>
    have some : 0 < lines.length := List.length_pos_iff.2 (by simpa using more)
    cases i with
    | zero => simp [some]
    | succ i => simp only [List.getElem?_cons_succ, ih, List.length_cons, Nat.add_lt_add_iff_right]

theorem mendAll_mendAll (lines : List Text) : mendAll (mendAll lines) = mendAll lines := by
  refine List.ext_getElem? fun i => ?_
  rw [getElem?_mendAll, getElem?_mendAll, length_mendAll]
  split
  · rw [Option.map_map]
    congr 1
    funext line
    exact mend_mend line
  · rfl

/-! ## Texts -/

/-- The line end is found behind spaces and tabs only. -/
theorem afterLineEnd?_append_newline {line : Text} (within : '\n' ∉ line) (rest : Text) :
    Text.afterLineEnd? (line ++ '\n' :: rest) = if line.all isTabOrSpace = true then some rest else none := by
  induction line with
  | nil => rfl
  | cons c cs ih =>
    rw [List.mem_cons, not_or] at within
    cases blank : isTabOrSpace c with
    | true =>
      have skip : Text.afterLineEnd? (c :: (cs ++ '\n' :: rest)) = Text.afterLineEnd? (cs ++ '\n' :: rest) := by
        rw [Text.afterLineEnd?, List.dropWhile_cons_of_pos blank, Text.afterLineEnd?]
      rw [List.cons_append, skip, ih within.2, List.all_cons, blank, Bool.true_and]
    | false =>
      rw [List.cons_append, Text.afterLineEnd?, List.dropWhile_cons_of_neg (by simp [blank]), List.all_cons, blank]
      split
      · next found => exact absurd (List.cons.inj found).1.symm within.1
      · rfl

/-- A line is repaired by itself, and the text goes on behind its newline. -/
theorem repairAfter_append_newline {line : Text} (within : '\n' ∉ line) (previous : Option Char) (rest : Text) :
    repairAfter previous (line ++ '\n' :: rest) =
      mendAfter previous line ++ '\n' :: repairAfter (some '\n') rest := by
  induction line generalizing previous with
  | nil =>
    rw [List.nil_append, repairAfter, if_neg (by simp)]
    rfl
  | cons c cs ih =>
    rw [List.mem_cons, not_or] at within
    have behind := afterLineEnd?_append_newline within.2 rest
    rw [List.cons_append, repairAfter, mendAfter]
    by_cases backslash : c = '\\' ∧ previous ≠ some '\\'
    · rw [if_pos backslash]
      split
      · next found =>
        rw [behind] at found
        split at found
        · next blanks =>
          obtain rfl := Option.some.inj found
          rw [if_pos ⟨backslash.1, backslash.2, blanks⟩]
          rfl
        · cases found
      · next none =>
        rw [behind] at none
        split at none
        · cases none
        · next visible => rw [if_neg fun h => visible h.2.2, ih within.2, List.cons_append]
    · rw [if_neg backslash, if_neg fun h => backslash ⟨h.1, h.2.1⟩, ih within.2, List.cons_append]

/-- The lines of a repaired text are the lines of the text, all but the last repaired. -/
theorem lines_repairAfter {previous : Option Char} (other : previous ≠ some '\\') (t : Text) :
    Text.lines (repairAfter previous t) = mendAll (Text.lines t) := by
  by_cases broken : '\n' ∈ t
  · obtain ⟨line, rest, rfl, within⟩ := List.eq_append_cons_of_mem broken
    have shorter : rest.length < (line ++ '\n' :: rest).length := by
      rw [List.length_append, List.length_cons]
      omega
    rw [repairAfter_append_newline within, mendAfter_eq_mend other,
      Text.lines_append_newline (newline_not_mem_mend within), lines_repairAfter (by decide) rest,
      Text.lines_append_newline within, mendAll_cons line (Text.lines_ne_nil rest)]
  · rw [repairAfter_eq_self previous broken, Text.lines_of_not_mem broken]
    rfl
termination_by t.length

theorem lines_repairLineBreaks (t : Text) : Text.lines (repairLineBreaks t) = mendAll (Text.lines t) :=
  lines_repairAfter (by simp) t

/-- The text `r` has the lines of `s` with their line breaks repaired. A line has a line break if another
line follows. -/
structure Repaired (s r : Text) : Prop where
  count : (Text.lines r).length = (Text.lines s).length
  /-- A single backslash and the blanks behind it give way to two. -/
  mended : ∀ i line start, i + 1 < (Text.lines s).length → (Text.lines s)[i]? = some line →
    EndsSingly line start → (Text.lines r)[i]? = some (start ++ ['\\', '\\'])
  /-- Any other line stays as it is. -/
  kept : ∀ i line, i + 1 < (Text.lines s).length → (Text.lines s)[i]? = some line →
    (∀ start, ¬EndsSingly line start) → (Text.lines r)[i]? = some line
  last : (Text.lines r).getLast? = (Text.lines s).getLast?
  /-- No line break is left to be repaired. -/
  done : ∀ i line start, i + 1 < (Text.lines r).length → (Text.lines r)[i]? = some line → ¬EndsSingly line start

/-- A repair acts on the line breaks that need it and on nothing else, and a second one changes nothing. -/
theorem repaired_repairLineBreaks (t : Text) :
    Repaired t (repairLineBreaks t) ∧ repairLineBreaks (repairLineBreaks t) = repairLineBreaks t := by
  have lines := lines_repairLineBreaks t
  have count : (Text.lines (repairLineBreaks t)).length = (Text.lines t).length := by rw [lines, length_mendAll]
  have broken {i : Nat} {line : Text} (more : i + 1 < (Text.lines t).length) (h : (Text.lines t)[i]? = some line) :
      (Text.lines (repairLineBreaks t))[i]? = some (mend line) := by
    rw [lines, getElem?_mendAll, if_pos more, h]
    rfl
  refine ⟨⟨count, ?_, ?_, ?_, ?_⟩, ?_⟩
  · intro i line start more h single
    rw [broken more h, single.mend_eq]
  · intro i line more h other
    rw [broken more h, mend_eq_self other]
  · rw [List.getLast?_eq_getElem?, List.getLast?_eq_getElem?, count, lines, getElem?_mendAll, if_neg (by omega)]
  · intro i line start more h
    rw [count] at more
    obtain ⟨before, h'⟩ : ∃ before, (Text.lines t)[i]? = some before :=
      ⟨_, List.getElem?_eq_getElem (Nat.lt_of_succ_lt more)⟩
    obtain rfl := Option.some.inj ((broken more h').symm.trans h)
    exact not_endsSingly_mend before start
  · rw [← Text.join_lines (repairLineBreaks (repairLineBreaks t)), lines_repairLineBreaks, lines, mendAll_mendAll,
      ← lines, Text.join_lines]

/-- Three backslashes are not a single one, and the last line has no line break. -/
example : repairLineBreaks "a\\ \t\n\\\\\\\nb\\".toList = "a\\\\\n\\\\\\\nb\\".toList := by decide +kernel

end OfficeFormula.Latex
