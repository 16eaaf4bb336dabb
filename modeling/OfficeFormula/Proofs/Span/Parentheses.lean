import OfficeFormula.Proofs.Span.Placeholder

/-!
# Plain parentheses, without a counter

The scan for formulas in plain parentheses goes through the text once and counts what is open. Here the same
is said without a counter. A parenthesis is closed by the first closing one up to which as many have been
closed as opened (`closing?`), and a text is cut into such groups and the characters between them
(`softSegments`). The scan replaces the groups of that cut, and what it asks about is always balanced
(`extractSoft_eq_substitute`).
-/

namespace OfficeFormula.Span

open Store (find?)

/-- No parenthesis is closed before it is opened, and none is left open. -/
structure Balanced (t : Text) : Prop where
  never : ∀ start, start <+: t → start.count ')' ≤ start.count '('
  all : t.count ')' = t.count '('

/-- At the place `n` of the text stands a closing parenthesis, and before it as many have been closed as
were open before the text or have been opened in it. -/
def closesAt (before : Nat) (t : Text) (n : Nat) : Bool :=
  t[n]? = some ')' && (t.take n).count ')' = before + (t.take n).count '('

/-- Where the parenthesis is closed that stands before the text and `inner` others. -/
def closingAfter? (inner : Nat) (t : Text) : Option Nat := (List.range t.length).find? (closesAt inner t)

/-- Where the parenthesis is closed that stands right before the text. -/
def closing? (t : Text) : Option Nat := closingAfter? 0 t

/-- The balanced parentheses of a text that `previous` stands before, and the characters between them. The
target of a link is no such group, and if a parenthesis is never closed there is none from there on. -/
def softSegments (previous : Option Char) : Text → List Segment
  | [] => []
  | c :: cs =>
    if c = '(' ∧ previous ≠ some ']' then
      match closing? cs with
      | none => (c :: cs).map .plain
      | some n =>
        .found (Store.inParentheses (cs.take n)) (cs.take n) :: softSegments (some ')') (cs.drop (n + 1))
    else .plain c :: softSegments (some c) cs
termination_by t => t.length
decreasing_by all_goals simp; try omega

/-- The word of an entry that is rendered markup stands somewhere in the text. -/
def Store.showsRendered (s : Store) (t : Text) : Bool :=
  s.spans.any fun e => Text.contains e.word t && (find? s.spans e.word).any (·.kind = .rendered)

/-- A formula takes the place of the parentheses if they hold one, and no rendered markup. -/
def Store.replaceGroup (isMath : Text → Bool) (s : Store) (source content : Text) : Store × Text :=
  if isMath content && !s.showsRendered content then s.add .inline content else (s, source)

/-! ## Where a parenthesis is closed -/

theorem closingAfter?_cons {inner inner' : Nat} {c : Char} {cs : Text} (first : closesAt inner (c :: cs) 0 = false)
    (later : ∀ n, closesAt inner (c :: cs) (n + 1) = closesAt inner' cs n) :
    closingAfter? inner (c :: cs) = (closingAfter? inner' cs).map (· + 1) := by
  have shifted : closesAt inner (c :: cs) ∘ Nat.succ = closesAt inner' cs := funext later
  rw [closingAfter?, List.length_cons, List.range_succ_eq_map, List.find?_cons, first, List.find?_map, shifted]
  rfl

theorem closingAfter?_opens (inner : Nat) (cs : Text) :
    closingAfter? inner ('(' :: cs) = (closingAfter? (inner + 1) cs).map (· + 1) := by
  refine closingAfter?_cons rfl fun n => ?_
  have count : inner + ((cs.take n).count '(' + 1) = inner + 1 + (cs.take n).count '(' := by omega
  simp [closesAt, count]

theorem closingAfter?_closes (cs : Text) : closingAfter? 0 (')' :: cs) = some 0 := by
  rw [closingAfter?, List.length_cons, List.range_succ_eq_map, List.find?_cons]
  rfl

theorem closingAfter?_closes_inner (inner : Nat) (cs : Text) :
    closingAfter? (inner + 1) (')' :: cs) = (closingAfter? inner cs).map (· + 1) := by
  refine closingAfter?_cons (by simp [closesAt]) fun n => ?_
  have count : (cs.take n).count ')' + 1 = inner + 1 + (cs.take n).count '(' ↔
      (cs.take n).count ')' = inner + (cs.take n).count '(' := by omega
  simp [closesAt, count]

theorem closingAfter?_other (inner : Nat) {c : Char} (opens : c ≠ '(') (closes : c ≠ ')') (cs : Text) :
    closingAfter? inner (c :: cs) = (closingAfter? inner cs).map (· + 1) := by
  refine closingAfter?_cons (by simp [closesAt, closes]) fun n => ?_
  simp [closesAt, opens, closes]

/-- What stands before the place where a parenthesis is closed is balanced. -/
theorem balanced_of_closing? {t : Text} {n : Nat} (h : closing? t = some n) : Balanced (t.take n) := by
  obtain ⟨here, within, first⟩ := List.find?_range_eq_some.1 h
  simp only [closesAt, Bool.and_eq_true, decide_eq_true_eq, Nat.zero_add] at here
  refine ⟨?_, here.2⟩
  -- Up to the first place where one more is closed than opened, no place has been of that kind.
  have never : ∀ m ≤ n, (t.take m).count ')' ≤ (t.take m).count '(' := by
    intro m
    induction m with
    | zero => simp
    | succ m ih =>
      intro bound
      have ih := ih (by omega)
      have earlier := first m (by omega)
      rw [List.take_add_one, List.count_append, List.count_append]
      by_cases closes : t[m]? = some ')'
      · simp only [closesAt, closes, decide_true, Bool.true_and, Nat.zero_add, Bool.not_eq_true',
          decide_eq_false_iff_not] at earlier
        rw [closes, Option.toList_some, List.count_singleton_self]
        omega
      · have other : t[m]?.toList.count ')' = 0 := by
          rw [List.count_eq_zero]
          simpa using closes
        omega
  intro start h
  rw [List.prefix_iff_eq_take.1 h, List.take_take]
  exact never _ (Nat.min_le_right ..)

/-! ## Rendered markup in a text -/

/-- What begins with `c` does not begin in a stretch without it. -/
theorem cons_infix_append_iff {c : Char} {cs w t : Text} (other : c ∉ w) :
    c :: cs <:+: w ++ t ↔ c :: cs <:+: t := by
  induction w with
  | nil => rfl
  | cons d ds ih =>
    rw [List.mem_cons, not_or] at other
    have first : ¬c :: cs <+: d :: (ds ++ t) := fun h => other.1 (List.cons_prefix_cons.1 h).1
    rw [List.cons_append, List.infix_cons_iff, ih other.2, or_iff_right first]

/-- A search for placeholders finds those that stand anywhere in the text. -/
theorem mem_placeholdersIn_iff {i : Nat} {t : Text} : placeholder i ∈ placeholdersIn t ↔ placeholder i <:+: t := by
  have start : ∃ more, placeholder i = 'M' :: more := ⟨_, rfl⟩
  unfold placeholdersIn segments
  generalize (none : Option Char) = previous
  fun_induction segmentsAfter placeholderForm previous t with
  | case1 => simp [placeholder_ne_nil]
  | case2 previous c cs none ih =>
    have first : ¬placeholder i <+: c :: cs := by
      rintro ⟨rest, h⟩
      rw [← h, placeholderForm_span] at none
      cases none
    rw [List.infix_cons_iff, or_iff_right first]
    exact ih
  | case3 previous c cs hit found source ih =>
    obtain ⟨more, rest, text, alone, rfl⟩ := exists_of_placeholderForm found
    rw [List.cons_append] at text
    obtain ⟨rfl, rfl⟩ := List.cons.inj text
    have first : placeholder i <+: 'M' :: (more ++ rest) ↔ placeholder i = 'M' :: more := by
      constructor
      · rintro ⟨behind, h⟩
        rw [← h, placeholderForm_span] at found
        exact (Hit.mk.inj (Option.some.inj found)).2
      · intro h
        exact h ▸ List.prefix_append _ rest
    have behind : (more ++ rest).drop (('M' :: more).length - 1) = rest := List.drop_left
    obtain ⟨word, start⟩ := start
    rw [List.infix_cons_iff, first, start, cons_infix_append_iff alone, ← start]
    rw [behind] at ih ⊢
    exact List.mem_cons.trans (or_congr_right ih)

theorem holdsRendered_eq (s : Store) (t : Text) : s.holdsRendered t = s.showsRendered t := by
  rw [Bool.eq_iff_iff]
  simp only [Store.holdsRendered, Store.showsRendered, List.any_eq_true, Bool.and_eq_true, Option.any_eq_true,
    decide_eq_true_eq, Text.contains_iff_infix]
  constructor
  · rintro ⟨word, inside, e, found, rendered⟩
    have known : e.word = word := by simpa using List.find?_some found
    subst known
    exact ⟨e, List.mem_of_find?_eq_some found, mem_placeholdersIn_iff.1 inside, e, found, rendered⟩
  · rintro ⟨e, _, inside, e', found, rendered⟩
    exact ⟨e.word, mem_placeholdersIn_iff.2 inside, e', found, rendered⟩

theorem closeParentheses_eq (isMath : Text → Bool) (s : Store) (content : Text) :
    s.closeParentheses isMath content = s.replaceGroup isMath (Store.inParentheses content) content := by
  rw [Store.closeParentheses, Store.extract, holdsRendered_eq, Store.replaceGroup]
  cases isMath content <;> cases s.showsRendered content <;> rfl

/-! ## The scan -/

section Scan

variable (isMath : Text → Bool)

/-- Inside parentheses the scan holds what it reads until they are closed, and gives it back if they never
are. -/
theorem softScan_inside (s : Store) (previous : Option Char) (inner : Nat) (held t : Text) :
    s.softScan isMath previous (inner + 1) held t =
      match closingAfter? inner t with
      | none => (s, '(' :: (held.reverse ++ t))
      | some n =>
        let closed := s.closeParentheses isMath (held.reverse ++ t.take n)
        let rest := closed.1.softScan isMath (some ')') 0 [] (t.drop (n + 1))
        (rest.1, closed.2 ++ rest.2) := by
  induction t generalizing previous inner held with
  | nil => simp [Store.softScan, closingAfter?]
  | cons c cs ih =>
    rw [Store.softScan]
    by_cases opens : c = '('
    · subst opens
      rw [if_pos rfl, if_neg (by omega), ih, closingAfter?_opens]
      cases closingAfter? (inner + 1) cs with
      | none => simp
      | some n => simp
    · rw [if_neg opens]
      by_cases closes : c = ')'
      · subst closes
        rw [if_pos (by simp)]
        cases inner with
        | zero =>
          rw [if_pos rfl, closingAfter?_closes]
          simp
        | succ inner =>
          rw [if_neg (by omega), Nat.add_sub_cancel, ih, closingAfter?_closes_inner]
          cases closingAfter? inner cs with
          | none => simp
          | some n => simp
      · rw [if_neg (by simp [closes]), if_pos (by omega), ih, closingAfter?_other inner opens closes]
        cases closingAfter? inner cs with
        | none => simp
        | some n => simp

theorem substitute_map_plain {σ : Type} (f : σ → (source content : Text) → σ × Text) (s : σ) (t : Text) :
    substitute f s (t.map .plain) = (s, t) := by
  have whole := substitute_plain f s t []
  rw [List.append_nil] at whole
  rw [whole]
  simp [substitute]

/-- Outside parentheses the scan copies characters and replaces groups. -/
theorem softScan_outside (s : Store) (previous : Option Char) (held t : Text) :
    s.softScan isMath previous 0 held t =
      substitute (Store.replaceGroup isMath) s (softSegments previous t) := by
  fun_induction softSegments previous t generalizing s held with
  | case1 => simp [Store.softScan, substitute]
  | case2 previous c cs opens never =>
    obtain ⟨rfl, target⟩ := opens
    rw [Store.softScan, if_pos rfl, if_pos rfl, if_neg target, softScan_inside, ← closing?, never, substitute_map_plain]
    rfl
  | case3 previous c cs opens n closed ih =>
    obtain ⟨rfl, target⟩ := opens
    rw [Store.softScan, if_pos rfl, if_pos rfl, if_neg target, softScan_inside, ← closing?, closed]
    simp only [substitute, List.reverse_nil, List.nil_append, closeParentheses_eq, ih]
  | case4 previous c cs other ih =>
    rw [Store.softScan, substitute, ← ih]
    by_cases opens : c = '('
    · have target : previous = some ']' := Classical.byContradiction fun h => other ⟨opens, h⟩
      rw [if_pos opens, if_pos rfl, if_pos target]
    · rw [if_neg opens, if_neg (by omega), if_neg (by omega)]

end Scan

theorem split_of_closing? {t : Text} {n : Nat} (h : closing? t = some n) : t.take n ++ ')' :: t.drop (n + 1) = t := by
  have here := List.find?_some h
  simp only [closesAt, Bool.and_eq_true, decide_eq_true_eq] at here
  obtain ⟨within, closes⟩ := List.getElem?_eq_some_iff.1 here.1
  rw [← closes, ← List.drop_eq_getElem_cons, List.take_append_drop]

/-- Cutting a text at its parentheses loses nothing. -/
theorem flatMap_source_softSegments (previous : Option Char) (t : Text) :
    (softSegments previous t).flatMap Segment.source = t := by
  fun_induction softSegments previous t with
  | case1 => rfl
  | case2 previous c cs _ _ => simp [List.flatMap_map, Segment.source]
  | case3 previous c cs opens n closed ih =>
    obtain ⟨rfl, _⟩ := opens
    rw [List.flatMap_cons, ih, Segment.source, Store.inParentheses, List.append_assoc, List.cons_append,
      List.singleton_append, split_of_closing? closed]
  | case4 previous c cs _ ih => rw [List.flatMap_cons, ih, Segment.source, List.singleton_append]

theorem balanced_of_mem_softSegments {previous : Option Char} {t source content : Text}
    (h : .found source content ∈ softSegments previous t) : Balanced content := by
  fun_induction softSegments previous t with
  | case1 => cases h
  | case2 => simp at h
  | case3 previous c cs _ n closed ih =>
    rcases List.mem_cons.1 h with same | h
    · rw [(Segment.found.inj same).2]
      exact balanced_of_closing? closed
    · exact ih h
  | case4 previous c cs _ ih =>
    rcases List.mem_cons.1 h with same | h
    · cases same
    · exact ih h

/-- Where nothing is replaced the text stays as it is. -/
theorem substitute_replaceGroup_never (s : Store) (segments : List Segment) :
    substitute (Store.replaceGroup fun _ => false) s segments = (s, segments.flatMap Segment.source) := by
  induction segments with
  | nil => rfl
  | cons segment more ih =>
    cases segment with
    | plain c => simp [substitute, ih, Segment.source]
    | found source content => simp [substitute, ih, Segment.source, Store.replaceGroup]

/-- The scan for formulas in plain parentheses replaces the groups of the text, and those only. All that is
taken for a formula or not is balanced, and if nothing is taken for one the text stays as it is. -/
theorem extractSoft_eq_substitute (isMath : Text → Bool) (s : Store) (t : Text) :
    s.extractSoft isMath t = substitute (Store.replaceGroup isMath) s (softSegments none t) ∧
      (∀ source content, .found source content ∈ softSegments none t → Balanced content) ∧
      s.extractSoft (fun _ => false) t = (s, t) := by
  refine ⟨softScan_outside isMath s none [] t, fun _ _ => balanced_of_mem_softSegments, ?_⟩
  rw [Store.extractSoft, softScan_outside, substitute_replaceGroup_never, flatMap_source_softSegments]

/-- A group inside another is part of its content; the target of a link and what is never closed are none. -/
theorem extractSoft_eq_substitute_nested :
    .found "(u(v)+1)".toList "u(v)+1".toList ∈ softSegments none "[a](b+c) (u(v)+1) (w (x+y)".toList ∧
      Balanced "u(v)+1".toList ∧
      Store.empty.extractSoft (fun _ => true) "[a](b+c) (u(v)+1) (w (x+y)".toList =
        substitute (Store.replaceGroup fun _ => true) .empty
          (softSegments none "[a](b+c) (u(v)+1) (w (x+y)".toList) := by
  have group : .found "(u(v)+1)".toList "u(v)+1".toList ∈ softSegments none "[a](b+c) (u(v)+1) (w (x+y)".toList := by
    decide +kernel
  obtain ⟨scan, balanced, _⟩ := extractSoft_eq_substitute (fun _ => true) .empty "[a](b+c) (u(v)+1) (w (x+y)".toList
  exact ⟨group, balanced _ _ group, scan⟩

end OfficeFormula.Span
