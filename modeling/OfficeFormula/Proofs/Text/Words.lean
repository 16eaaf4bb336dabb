import OfficeFormula.Text.Blank
import OfficeFormula.Text.Digit
import OfficeFormula.Text.Word

/-!
# Words

Texts with something between them, and texts with no blank at their ends. Letters and digits are not blank.
-/

namespace OfficeFormula

/-! ## Characters that are not blank -/

/-- Of the printable characters of ASCII only the space is blank. -/
theorem isBlank_of_ascii {c : Char} (low : 32 < c.toNat) (high : c.toNat < 127) : isBlank c = false := by
  cases blank : isBlank c with
  | false => rfl
  | true =>
    obtain ⟨r, hr, lower, upper⟩ := inRanges_iff.1 blank
    simp only [blankRanges, List.mem_cons, List.not_mem_nil, or_false] at hr
    rcases hr with rfl | rfl | rfl | rfl | rfl | rfl | rfl | rfl | rfl | rfl
    all_goals
      dsimp only at lower upper
      omega

theorem isBlank_of_isAsciiLetter {c : Char} (h : isAsciiLetter c = true) : isBlank c = false := by
  simp only [isAsciiLetter, Bool.or_eq_true, Bool.and_eq_true, decide_eq_true_eq, Char.le_def,
    UInt32.le_iff_toNat_le] at h
  have h : 97 ≤ c.toNat ∧ c.toNat ≤ 122 ∨ 65 ≤ c.toNat ∧ c.toNat ≤ 90 := h
  exact isBlank_of_ascii (by omega) (by omega)

theorem isBlank_of_isAsciiDigit {c : Char} (h : isAsciiDigit c = true) : isBlank c = false := by
  simp only [isAsciiDigit, Bool.and_eq_true, decide_eq_true_eq, Char.le_def,
    UInt32.le_iff_toNat_le] at h
  have h : 48 ≤ c.toNat ∧ c.toNat ≤ 57 := h
  exact isBlank_of_ascii (by omega) (by omega)

namespace Text

/-! ## Trimming -/

theorem trimStart_eq_self {t : Text} (first : ∀ c ∈ t.head?, isBlank c = false) : t.trimStart = t := by
  cases t with
  | nil => rfl
  | cons c cs =>
    have visible := first c rfl
    rw [trimStart, List.dropWhile_cons_of_neg (by simp [visible])]

/-- A text with no blank at its ends is left as it is. -/
theorem trim_eq_self {t : Text} (first : ∀ c ∈ t.head?, isBlank c = false)
    (last : ∀ c ∈ t.getLast?, isBlank c = false) : t.trim = t := by
  have reversed : t.reverse.dropWhile isBlank = t.reverse :=
    trimStart_eq_self (by rwa [List.head?_reverse])
  rw [trim, trimStart_eq_self first, trimEnd, reversed, List.reverse_reverse]

theorem trimStart_append_cons {c : Char} (solid : isBlank c = false) (u t : Text) :
    trimStart (u ++ c :: t) = u.trimStart ++ c :: t := by
  rw [trimStart, trimStart, List.dropWhile_append]
  split
  · next blank =>
    rw [List.dropWhile_cons_of_neg (by simp [solid]), List.isEmpty_iff.1 blank]
    rfl
  · rfl

theorem trimEnd_append_cons {c : Char} (solid : isBlank c = false) (t v : Text) :
    trimEnd (t ++ c :: v) = t ++ c :: v.trimEnd := by
  have reversed := trimStart_append_cons solid v.reverse t.reverse
  rw [trimStart, trimStart] at reversed
  rw [trimEnd, trimEnd, List.reverse_append, List.reverse_cons, List.append_assoc, List.singleton_append,
    reversed]
  simp

/-- Trimming does not reach what stands between characters that are not blank. -/
theorem trim_around {a b : Char} (ha : isBlank a = false) (hb : isBlank b = false) (u t v : Text) :
    trim (u ++ (a :: (t ++ [b])) ++ v) = u.trimStart ++ (a :: (t ++ [b])) ++ v.trimEnd := by
  have start : trimStart (u ++ (a :: (t ++ [b])) ++ v) = (u.trimStart ++ a :: t) ++ b :: v := by
    simpa using trimStart_append_cons ha u (t ++ b :: v)
  rw [trim, start, trimEnd_append_cons hb]
  simp

theorem trim_enclosed {a b : Char} (ha : isBlank a = false) (hb : isBlank b = false) (t : Text) :
    trim (a :: (t ++ [b])) = a :: (t ++ [b]) := by
  simpa [trimStart, trimEnd] using trim_around ha hb [] t []

/-- The characters of a text that are not blank. -/
def visible (t : Text) : Text := t.filter (!isBlank ·)

/-- What is visible of a text is told character by character. -/
theorem visible_append (s t : Text) : visible (s ++ t) = visible s ++ visible t := List.filter_append ..

theorem visible_of_isBlank {t : Text} (blank : t.all isBlank = true) : visible t = [] := by
  rw [visible, List.filter_eq_nil_iff]
  intro c hc
  simp [List.all_eq_true.1 blank c hc]

theorem visible_dropWhile (t : Text) : visible (t.dropWhile isBlank) = visible t := by
  induction t with
  | nil => rfl
  | cons c cs ih =>
    by_cases blank : isBlank c = true
    · rw [List.dropWhile_cons_of_pos blank, ih, visible, visible, List.filter_cons_of_neg (by simp [blank])]
    · rw [List.dropWhile_cons_of_neg blank]

/-- Trimming takes away blanks only. -/
theorem visible_trim (t : Text) : visible t.trim = visible t := by
  have reverse (u : Text) : visible u.reverse = (visible u).reverse := List.filter_reverse ..
  rw [trim, trimEnd, reverse, visible_dropWhile, reverse, List.reverse_reverse, trimStart, visible_dropWhile]

theorem isBlank_of_mem_head?_dropWhile {t : Text} {c : Char} (h : c ∈ (t.dropWhile isBlank).head?) :
    isBlank c = false := by
  have first := List.head?_dropWhile_not isBlank t
  rw [h] at first
  simpa using first

/-- No blank is left at the end of a trimmed text. -/
theorem isBlank_of_mem_getLast?_trimEnd {t : Text} {c : Char} (h : c ∈ t.trimEnd.getLast?) : isBlank c = false := by
  rw [trimEnd, List.getLast?_reverse] at h
  exact isBlank_of_mem_head?_dropWhile h

theorem isBlank_of_mem_getLast?_trim {t : Text} {c : Char} (h : c ∈ t.trim.getLast?) : isBlank c = false :=
  isBlank_of_mem_getLast?_trimEnd h

/-- No blank is left at the beginning of a trimmed text. -/
theorem isBlank_of_mem_head?_trim {t : Text} {c : Char} (h : c ∈ t.trim.head?) : isBlank c = false := by
  obtain ⟨behind, split⟩ : t.trim <+: t.trimStart := by
    rw [trim, trimEnd, ← List.reverse_suffix, List.reverse_reverse]
    exact List.dropWhile_suffix isBlank
  have first : c ∈ t.trimStart.head? := by
    rw [← split, List.head?_append, Option.mem_def.1 h]
    rfl
  exact isBlank_of_mem_head?_dropWhile first

theorem visible_ne_nil {t : Text} (ne : t.trim ≠ []) : visible t ≠ [] := by
  obtain ⟨c, cs, split⟩ := List.exists_cons_of_ne_nil ne
  have plain : isBlank c = false := isBlank_of_mem_head?_trim (t := t) (by rw [split]; rfl)
  rw [← visible_trim, split, visible, List.filter_cons_of_pos (by simp [plain])]
  exact List.cons_ne_nil _ _

theorem trim_trim (t : Text) : t.trim.trim = t.trim :=
  trim_eq_self (fun _ h => isBlank_of_mem_head?_trim h) (fun _ h => isBlank_of_mem_getLast?_trim h)

theorem trim_of_isBlank {t : Text} (blank : t.all isBlank = true) : t.trim = [] := by
  cases split : t.trim with
  | nil => rfl
  | cons c cs => exact absurd (visible_of_isBlank blank) (visible_ne_nil (by simp [split]))

/-- A text in which one character is not blank is trimmed to that character, and only such a text. -/
theorem trim_eq_singleton_iff {t : Text} {c : Char} : t.trim = [c] ↔ visible t = [c] := by
  constructor
  · intro one
    have plain : isBlank c = false := isBlank_of_mem_head?_trim (t := t) (by rw [one]; rfl)
    rw [← visible_trim, one, visible, List.filter_cons_of_pos (by simp [plain])]
    rfl
  · intro one
    rw [← visible_trim] at one
    cases split : t.trim with
    | nil => simp [split, visible] at one
    | cons d ds =>
      have first : isBlank d = false := isBlank_of_mem_head?_trim (t := t) (by rw [split]; rfl)
      rw [split, visible, List.filter_cons_of_pos (by simp [first]), List.cons.injEq] at one
      obtain ⟨rfl, none⟩ := one
      cases ds with
      | nil => rfl
      | cons e es =>
        -- The last of several characters is not blank either.
        have final : t.trim.getLast? = some ((e :: es).getLast (by simp)) := by
          rw [split, List.getLast?_cons_cons, List.getLast?_eq_some_getLast]
        have last := isBlank_of_mem_getLast?_trim final
        exact absurd last (by simpa using List.filter_eq_nil_iff.1 none _ (List.getLast_mem (by simp)))

/-! ## Words -/

/-- The words of a text are parts of it, and where it begins with one, so does the list. -/
theorem forall_mem_wordsBy {isSeparator : Char → Bool} (t : Text) :
    (∀ w ∈ wordsBy isSeparator t, w <:+: t) ∧
      ((∀ c ∈ t.head?, isSeparator c = false) → ∀ w ∈ (wordsBy isSeparator t).head?, w <+: t) := by
  fun_induction wordsBy isSeparator t with
  | case1 => simp
  | case2 c cs separates ih =>
    exact ⟨fun w h => (ih.1 w h).trans (List.suffix_cons c cs).isInfix, by simp [separates]⟩
  | case3 c word => simp
  | case4 c word d ds separates ih =>
    refine ⟨?_, by simp⟩
    rw [List.forall_mem_cons]
    exact ⟨(List.prefix_append [c] (d :: ds)).isInfix, fun w h => (ih.1 w h).trans (List.suffix_cons c _).isInfix⟩
  | case5 c word d ds word' none ih =>
    have first : [c] <+: c :: d :: ds := List.prefix_append [c] (d :: ds)
    simpa [none] using first.isInfix
  | case6 c word d ds word' w ws more ih =>
    have first : c :: w <+: c :: d :: ds := by
      rw [List.prefix_cons_inj]
      exact ih.2 (by simpa using word') w (by simp [more])
    simp only [more, List.forall_mem_cons, List.head?_cons, Option.mem_some_iff, forall_eq']
    refine ⟨⟨first.isInfix, fun w' h => ?_⟩, fun _ => first⟩
    exact (ih.1 w' (by simp [more, h])).trans (List.suffix_cons c _).isInfix

theorem infix_of_mem_wordsBy {isSeparator : Char → Bool} {w t : Text} (h : w ∈ wordsBy isSeparator t) : w <:+: t :=
  (forall_mem_wordsBy t).1 w h

/-! ## Lines -/

/-- A newline ends a line. -/
theorem lines_append_newline {line : Text} (within : '\n' ∉ line) (rest : Text) :
    lines (line ++ '\n' :: rest) = line :: lines rest := by
  induction line with
  | nil => simp [lines]
  | cons c cs ih =>
    rw [List.mem_cons, not_or] at within
    have other : c ≠ '\n' := fun same => within.1 same.symm
    rw [List.cons_append, lines, if_neg other, ih within.2]

theorem lines_append {stretch : Text} (within : '\n' ∉ stretch) {t l : Text} {ls : List Text}
    (h : lines t = l :: ls) : lines (stretch ++ t) = (stretch ++ l) :: ls := by
  induction stretch with
  | nil => exact h
  | cons c cs ih =>
    rw [List.mem_cons, not_or] at within
    have other : c ≠ '\n' := fun same => within.1 same.symm
    rw [List.cons_append, lines, if_neg other, ih within.2, List.cons_append]

theorem lines_of_not_mem {line : Text} (within : '\n' ∉ line) : lines line = [line] := by
  have empty : lines [] = [[]] := rfl
  simpa using lines_append within empty

/-! ## Joining -/

theorem join_append {sep : Text} {ls ms : List Text} (left : ls ≠ []) (right : ms ≠ []) :
    join sep (ls ++ ms) = join sep ls ++ sep ++ join sep ms := by
  induction ls with
  | nil => exact absurd rfl left
  | cons l ls ih =>
    cases ls with
    | nil =>
      obtain ⟨m, ms, rfl⟩ := List.exists_cons_of_ne_nil right
      simp [join]
    | cons l' ls =>
      have ih := ih (by simp)
      simp only [List.cons_append, join] at ih ⊢
      rw [ih]
      simp

/-- What is joined ends with its last part. -/
theorem join_concat (sep : Text) (ls : List Text) (l : Text) :
    ∃ before, join sep (ls ++ [l]) = before ++ l := by
  cases ls with
  | nil => exact ⟨[], rfl⟩
  | cons m ms =>
    refine ⟨join sep (m :: ms) ++ sep, ?_⟩
    rw [join_append (by simp) (by simp)]
    rfl

theorem join_take_prefix (sep : Text) (ls : List Text) (n : Nat) :
    join sep (ls.take n) <+: join sep ls := by
  by_cases left : ls.take n = []
  · rw [left]
    exact List.nil_prefix
  by_cases right : ls.drop n = []
  · have all : ls.take n = ls := by
      have := List.take_append_drop n ls
      rwa [right, List.append_nil] at this
    exact ⟨[], by rw [all, List.append_nil]⟩
  · refine ⟨sep ++ join sep (ls.drop n), ?_⟩
    rw [← List.append_assoc, ← join_append left right, List.take_append_drop]

theorem mem_join {sep : Text} {ts : List Text} {c : Char} (h : c ∈ join sep ts) :
    c ∈ sep ∨ ∃ t ∈ ts, c ∈ t := by
  fun_induction join sep ts with
  | case1 => simp at h
  | case2 t => exact .inr ⟨t, List.mem_cons_self, h⟩
  | case3 t ts ne ih =>
    rw [List.mem_append, List.mem_append] at h
    rcases h with (h | h) | h
    · exact .inr ⟨t, List.mem_cons_self, h⟩
    · exact .inl h
    · exact (ih h).imp_right fun ⟨u, hu, hc⟩ => ⟨u, List.mem_cons_of_mem t hu, hc⟩

theorem mem_join_of_mem {sep t : Text} {ts : List Text} (ht : t ∈ ts) {c : Char} (h : c ∈ t) :
    c ∈ join sep ts := by
  fun_induction join sep ts with
  | case1 => simp at ht
  | case2 u => rwa [← List.mem_singleton.1 ht]
  | case3 u ts ne ih =>
    rw [List.mem_append, List.mem_append]
    rcases List.mem_cons.1 ht with rfl | ht
    · exact .inl (.inl h)
    · exact .inr (ih ht)

/-- Words without blanks, with something between them, have no blanks at their ends. -/
theorem trim_join {sep : Text} {ts : List Text} (ne : ∀ t ∈ ts, t ≠ [])
    (visible : ∀ t ∈ ts, ∀ c ∈ t, isBlank c = false) : (join sep ts).trim = join sep ts := by
  apply trim_eq_self
  · intro c hc
    cases ts with
    | nil => simp [join] at hc
    | cons t ts =>
      obtain ⟨d, more, rfl⟩ := List.exists_cons_of_ne_nil (ne t List.mem_cons_self)
      have first : (join sep ((d :: more) :: ts)).head? = some d := by cases ts <;> rfl
      obtain rfl : d = c := Option.some.inj (first.symm.trans hc)
      exact visible (d :: more) List.mem_cons_self d List.mem_cons_self
  · intro c hc
    by_cases none : ts = []
    · subst none
      simp [join] at hc
    · have mem := List.getLast_mem none
      have full := ne _ mem
      obtain ⟨front, text⟩ := join_concat sep ts.dropLast (ts.getLast none)
      rw [List.dropLast_concat_getLast none] at text
      rw [text, List.getLast?_append, List.getLast?_eq_some_getLast full, Option.some_or] at hc
      obtain rfl := Option.some.inj hc
      exact visible _ mem _ (List.getLast_mem full)

end Text

end OfficeFormula
