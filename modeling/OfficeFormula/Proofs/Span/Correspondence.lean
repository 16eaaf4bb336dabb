import OfficeFormula.Proofs.Span.Working

/-!
# Texts and the formulas set aside from them

A store may be used for several texts, and for formulas that are given to it directly. After each of
these calls the formulas that it holds are just those whose placeholders are in the texts that it has
given back (`runCalls_corresponds`).
-/

namespace OfficeFormula.Span

/-! ## Calls -/

/-- What a store can be asked for. -/
inductive Call where
  | protect (t : Text)
  | add (kind : Kind) (content : Text)

namespace Call

/-- The text that a call is about. -/
def argument : Call → Text
  | protect t => t
  | add _ content => content

def perform (soft : SoftParentheses) (s : Store) : Call → Store × Text
  | protect t => protectWith soft s t
  | add kind content => s.add kind content

end Call

/-- The store after some calls, and the texts that they have given back. -/
def runCalls (soft : SoftParentheses) (s : Store) : List Call → Store × List Text
  | [] => (s, [])
  | call :: calls =>
    let (s', t) := call.perform soft s
    let (s'', ts) := runCalls soft s' calls
    (s'', t :: ts)

/-- The formulas of a store are those whose placeholders are in the texts. -/
structure Corresponds (s : Store) (texts : List Text) : Prop where
  below : ∀ e ∈ s.spans, e.index < s.next
  sorted : s.spans.Pairwise (·.index < ·.index)
  /-- The placeholder of each formula stands in one text, once. -/
  once : ∀ e ∈ s.spans, Text.occurrencesIn e.word texts = 1
  /-- Nothing else in the texts looks like a placeholder. -/
  only : ∀ t ∈ texts, ∀ before rest previous hit, t = before ++ rest →
    placeholderForm previous rest = some hit → ∃ e ∈ s.spans, e.word = hit.content
  code : ∀ t ∈ texts, ∀ i, ¬codePlaceholder i <:+: t

/-! ## Placeholders in a clean text -/

/-- In a placeholder, what begins with an `M` can only stand at its head. -/
theorem occurrences_word {p : Piece} (word : p.isWord = true) (part t : Text) :
    Text.occurrences ('M' :: part) (p.text ++ t) =
      (if Text.startsWith ('M' :: part) (p.text ++ t) then 1 else 0) + Text.occurrences ('M' :: part) t := by
  obtain ⟨more, text, _⟩ := exists_word_eq_cons word
  have proper : ∀ u, u <:+ more → u ≠ p.text := by
    intro u hu he
    have := hu.length_le
    simp only [he, text, List.length_cons] at this
    omega
  have rest : Text.occurrences ('M' :: part) (more ++ t) = Text.occurrences ('M' :: part) t := by
    apply Text.occurrences_append_of_not
    intro u hu ne
    exact not_prefix_of_suffix_word word (by rw [text]; exact hu.trans (List.suffix_cons _ _))
      (proper u hu) ne
  rw [text, List.cons_append, Text.occurrences, rest]

/-- A placeholder in the spelling of clean pieces is one of them. -/
theorem occurrences_placeholder_spell (i : Nat) {ps : List Piece} (clean : Clean ps) :
    Text.occurrences (placeholder i) (spell ps) = (spanNumbers ps).count i := by
  induction ps with
  | nil => rfl
  | cons p ps ih =>
    have ih := ih (clean.mono (List.suffix_cons p ps).isInfix)
    obtain ⟨part, hpart⟩ : ∃ part, placeholder i = 'M' :: part := by
      rw [placeholder, placeholderStart_eq]
      exact ⟨_, rfl⟩
    rw [spell_cons]
    cases p with
    | span j =>
      have starts : Text.startsWith (placeholder i) ((Piece.span j).text ++ spell ps) = true ↔ i = j := by
        rw [Text.startsWith_iff_prefix]
        constructor
        · exact placeholder_prefix_inj
        · rintro rfl
          exact List.prefix_append _ _
      have same : (j == i) = true ↔ i = j := by rw [beq_iff_eq, eq_comm]
      rw [hpart] at ih starts ⊢
      rw [occurrences_word rfl, ih, spanNumbers_span, List.count_cons, Nat.add_comm]
      simp only [starts, same]
    | code j =>
      have other : ¬Text.startsWith (placeholder i) ((Piece.code j).text ++ spell ps) = true := by
        rw [Text.startsWith_iff_prefix]
        rintro ⟨rest, h⟩
        have found := placeholderForm_span none i rest
        rw [h, Piece.text, placeholderForm_code] at found
        simp at found
      rw [hpart] at ih other ⊢
      rw [occurrences_word rfl, if_neg other, ih, spanNumbers_code, Nat.zero_add]
    | char c =>
      have other : ¬Text.startsWith (placeholder i) (c :: spell ps) = true := by
        rw [Text.startsWith_iff_prefix]
        rintro ⟨rest, h⟩
        obtain ⟨q, qs, he, word⟩ := exists_word_of_start
          (b := decimal i ++ placeholderEnd ++ rest) clean (by
            rw [spell_cons, Piece.text, List.singleton_append, ← h, placeholder]
            simp)
        rw [List.cons.injEq] at he
        rw [← he.1] at word
        simp [Piece.isWord] at word
      rw [Piece.text, List.singleton_append, Text.occurrences, if_neg other, ih, spanNumbers_char,
        Nat.zero_add]

/-- The beginning of a placeholder anywhere in the spelling of clean pieces is that of a piece. -/
theorem exists_word_of_append_start {ps : List Piece} {a b : Text} (clean : Clean ps)
    (h : spell ps = a ++ (placeholderStart ++ b)) :
    ∃ us p vs, ps = us ++ p :: vs ∧ spell us = a ∧ p.isWord = true := by
  induction ps generalizing a with
  | nil => simp [placeholderStart_eq] at h
  | cons p ps ih =>
    cases a with
    | nil =>
      obtain ⟨q, qs, he, word⟩ := exists_word_of_start clean h
      exact ⟨[], q, qs, he, rfl, word⟩
    | cons c a =>
      have ih {a : Text} (h : spell ps = a ++ (placeholderStart ++ b)) :=
        ih (clean.mono (List.suffix_cons p ps).isInfix) h
      cases word : p.isWord with
      | true =>
        obtain ⟨more, text, alone⟩ := exists_word_eq_cons word
        rw [spell_cons, text, placeholderStart_eq, List.cons_append, List.cons_append,
          List.cons.injEq] at h
        obtain ⟨ws, rfl, rest⟩ := exists_of_append_eq_append_cons alone h.2
        obtain ⟨us, q, vs, rfl, rfl, hq⟩ := ih (by rw [placeholderStart_eq]; exact rest)
        exact ⟨p :: us, q, vs, rfl, by rw [spell_cons, text, h.1, List.cons_append], hq⟩
      | false =>
        cases p with
        | code i => simp [Piece.isWord] at word
        | span i => simp [Piece.isWord] at word
        | char d =>
          rw [spell_cons, Piece.text, List.singleton_append, List.cons_append, List.cons.injEq] at h
          obtain ⟨us, q, vs, rfl, rfl, hq⟩ := ih h.2
          exact ⟨.char d :: us, q, vs, rfl, by simp [Piece.text, h.1], hq⟩

/-! ## What a call keeps -/

/-- The texts that have been given back, as pieces, and the store that belongs to them. -/
structure Returned (s : Store) (pss : List (List Piece)) : Prop where
  clean : ∀ ps ∈ pss, Clean ps
  plain : ∀ ps ∈ pss, ∀ i, .code i ∉ ps
  isCode : ∀ code ∈ s.code, IsCode code
  numbers : (s.spans.map Entry.index).Perm (pss.flatMap spanNumbers)
  sorted : s.spans.Pairwise (·.index < ·.index)
  below : ∀ e ∈ s.spans, e.index < s.next

theorem code_not_mem_restored {codes : List Text} {ps : List Piece} (below : CodeBelow codes.length ps)
    (i : Nat) : .code i ∉ ps.flatMap (Piece.restored 0 codes) := by
  intro h
  obtain ⟨p, hp, mem⟩ := List.mem_flatMap.1 h
  cases p with
  | char c => simp [Piece.restored] at mem
  | span j => simp [Piece.restored] at mem
  | code j =>
    have bound := below j hp
    simp [Piece.restored, List.getElem?_eq_getElem bound] at mem

namespace Returned

variable {s : Store} {pss : List (List Piece)}

theorem append (returned : Returned s pss) {s' : Store} {ps : List Piece} (clean : Clean ps)
    (plain : ∀ i, .code i ∉ ps) (isCode : ∀ code ∈ s'.code, IsCode code)
    (numbers : (s'.spans.map Entry.index).Perm (pss.flatMap spanNumbers ++ spanNumbers ps))
    (sorted : s'.spans.Pairwise (·.index < ·.index)) (below : ∀ e ∈ s'.spans, e.index < s'.next) :
    Returned s' (pss ++ [ps]) := by
  refine ⟨?_, ?_, isCode, by simpa using numbers, sorted, below⟩
  · intro qs hqs
    rcases List.mem_append.1 hqs with hqs | hqs
    · exact returned.clean qs hqs
    · rwa [List.mem_singleton.1 hqs]
  · intro qs hqs
    rcases List.mem_append.1 hqs with hqs | hqs
    · exact returned.plain qs hqs
    · rwa [List.mem_singleton.1 hqs]

theorem protect (soft : SoftParentheses) (returned : Returned s pss) {t : Text}
    (fresh : ¬placeholderStart <:+: t) :
    ∃ ps, (protectWith soft s t).2 = spell ps ∧ Returned (protectWith soft s t).1 (pss ++ [ps]) := by
  obtain ⟨codes, first, ps, stashed, ⟨σ, tracks⟩, text⟩ :=
    exists_working soft returned.isCode fresh returned.numbers returned.sorted returned.below
  have below : CodeBelow codes.length ps := by
    intro i hi
    apply stashed.below
    rw [← tracks.source]
    exact List.mem_flatMap.2 ⟨_, hi, List.mem_singleton.2 rfl⟩
  refine ⟨_, text, returned.append (clean_flatMap_restored stashed.isCode tracks.clean)
    (code_not_mem_restored below) ?_ ?_ tracks.sorted tracks.below⟩
  · rw [tracks.code]
    exact stashed.isCode
  · rw [spanNumbers_flatMap_restored]
    exact tracks.numbers

theorem add (returned : Returned s pss) (kind : Kind) {content : Text}
    (fresh : ¬placeholderStart <:+: content) :
    ∃ ps, (s.add kind content).2 = spell ps ∧ Returned (s.add kind content).1 (pss ++ [ps]) := by
  have spans : (s.add kind content).1.spans =
      s.spans ++ [⟨s.next, kind, Store.restoreCode s.code (Store.expand s.spans content).2⟩] := by
    have expanded := expand_spell_fst fun e (_ : e ∈ s.spans) => (clean_map_char.2 fresh).avoids_entry e
    rw [spell_map_char, spanNumbers_map_char] at expanded
    simp [Store.add, expanded]
  refine ⟨[.span s.next], by simp [Store.add, Piece.text], returned.append ?_ ?_ returned.isCode ?_ ?_ ?_⟩
  · intro start
    have := start.length_le
    simp [placeholderStart_eq] at this
  · simp
  · rw [spans, List.map_append]
    exact returned.numbers.append_right _
  · rw [spans, List.pairwise_append]
    refine ⟨returned.sorted, List.pairwise_singleton _ _, ?_⟩
    intro e he e' he'
    rw [List.mem_singleton.1 he']
    exact returned.below e he
  · intro e he
    rw [spans, List.mem_append] at he
    change e.index < s.next + 1
    rcases he with he | he
    · exact Nat.lt_succ_of_lt (returned.below e he)
    · rw [List.mem_singleton.1 he]
      exact Nat.lt_succ_self _

/-- What one call keeps. -/
theorem perform (soft : SoftParentheses) (returned : Returned s pss) {call : Call}
    (fresh : ¬placeholderStart <:+: call.argument) :
    ∃ ps, (call.perform soft s).2 = spell ps ∧ Returned (call.perform soft s).1 (pss ++ [ps]) := by
  cases call with
  | protect t => exact returned.protect soft fresh
  | add kind content => exact returned.add kind fresh

/-- What a run of calls keeps. -/
theorem run (soft : SoftParentheses) {calls : List Call}
    (fresh : ∀ call ∈ calls, ¬placeholderStart <:+: call.argument) (returned : Returned s pss) :
    ∃ qss, (runCalls soft s calls).2 = qss.map spell ∧
      Returned (runCalls soft s calls).1 (pss ++ qss) := by
  induction calls generalizing s pss with
  | nil => exact ⟨[], rfl, by simpa [runCalls] using returned⟩
  | cons call calls ih =>
    obtain ⟨ps, text, kept⟩ := returned.perform soft (fresh call List.mem_cons_self)
    obtain ⟨qss, texts, kept'⟩ := ih (fun c hc => fresh c (List.mem_cons_of_mem _ hc)) kept
    exact ⟨ps :: qss, by simp [runCalls, text, texts], by simpa [runCalls] using kept'⟩

theorem occurrencesIn_placeholder (i : Nat) {pss : List (List Piece)} (clean : ∀ ps ∈ pss, Clean ps) :
    Text.occurrencesIn (placeholder i) (pss.map spell) = (pss.flatMap spanNumbers).count i := by
  induction pss with
  | nil => rfl
  | cons ps pss ih =>
    rw [List.map_cons, Text.occurrencesIn, List.flatMap_cons, List.count_append,
      occurrences_placeholder_spell i (clean ps List.mem_cons_self),
      ih fun qs hqs => clean qs (List.mem_cons_of_mem _ hqs)]

theorem corresponds (returned : Returned s pss) : Corresponds s (pss.map spell) := by
  refine ⟨returned.below, returned.sorted, ?once, ?only, ?code⟩
  case once =>
    intro e he
    have nodup : (s.spans.map Entry.index).Nodup := by
      rw [List.Nodup, List.pairwise_map]
      exact returned.sorted.imp Nat.ne_of_lt
    rw [Entry.word, occurrencesIn_placeholder e.index returned.clean, ← returned.numbers.count_eq]
    rw [List.Nodup.count nodup, if_pos (List.mem_map_of_mem he)]
  case only =>
    intro t ht before rest previous hit split found
    obtain ⟨ps, hps, rfl⟩ := List.mem_map.1 ht
    have starts : placeholderStart <+: rest := by
      refine Classical.byContradiction fun h => ?_
      rw [placeholderForm_eq_none_of_start h] at found
      simp at found
    obtain ⟨b, rfl⟩ := starts
    obtain ⟨us, p, vs, rfl, rfl, word⟩ := exists_word_of_append_start (returned.clean ps hps) split
    rw [spell_append, List.append_cancel_left_eq, spell_cons] at split
    cases p with
    | char c => simp [Piece.isWord] at word
    | code i => exact absurd (by simp) (returned.plain _ hps i)
    | span i =>
      rw [← split, Piece.text, placeholderForm_span, Option.some.injEq] at found
      have mem : i ∈ pss.flatMap spanNumbers := List.mem_flatMap.2 ⟨_, hps, by simp⟩
      obtain ⟨e, he, rfl⟩ := List.mem_map.1 (returned.numbers.mem_iff.2 mem)
      exact ⟨e, he, by rw [← found]; rfl⟩
  case code =>
    intro t ht i inside
    obtain ⟨ps, hps, rfl⟩ := List.mem_map.1 ht
    obtain ⟨a, b, split⟩ := inside
    have start : spell ps =
        a ++ (placeholderStart ++ ("CODE".toList ++ decimal i ++ placeholderEnd ++ b)) := by
      rw [← split, codePlaceholder]
      simp only [List.append_assoc]
    obtain ⟨us, p, vs, rfl, rfl, _⟩ := exists_word_of_append_start (returned.clean ps hps) start
    rw [spell_append, List.append_assoc, List.append_cancel_left_eq] at split
    have clean : Clean (p :: vs) := (returned.clean _ hps).mono (List.suffix_append _ _).isInfix
    obtain rfl := eq_of_prefix_spell (q := .code i) rfl (clean.avoids rfl) ⟨b, split⟩
    exact absurd (by simp) (returned.plain _ hps i)

end Returned

/-- After any calls the formulas that a store holds are just those whose placeholders are in the texts
that it has given back. -/
theorem runCalls_corresponds (soft : SoftParentheses) (calls : List Call)
    (fresh : ∀ call ∈ calls, ¬placeholderStart <:+: call.argument) :
    Corresponds (runCalls soft .empty calls).1 (runCalls soft .empty calls).2 := by
  have start : Returned .empty [] :=
    ⟨by simp, by simp, by simp [Store.empty], .nil, by simp [Store.empty], by simp [Store.empty]⟩
  obtain ⟨qss, texts, returned⟩ := start.run soft fresh
  rw [texts]
  exact returned.corresponds

theorem runCalls_corresponds_mixed :
    (∀ call ∈ [Call.protect "$a$ `b`".toList, .add .inline "c".toList, .protect "$$d$$ (e_1)".toList],
      ¬placeholderStart <:+: call.argument) ∧
    Corresponds
      (runCalls ⟨true, looksLikeMath⟩ .empty
        [.protect "$a$ `b`".toList, .add .inline "c".toList, .protect "$$d$$ (e_1)".toList]).1
      (runCalls ⟨true, looksLikeMath⟩ .empty
        [.protect "$a$ `b`".toList, .add .inline "c".toList, .protect "$$d$$ (e_1)".toList]).2 := by
  have fresh : ∀ call ∈ [Call.protect "$a$ `b`".toList, .add .inline "c".toList,
      .protect "$$d$$ (e_1)".toList], ¬placeholderStart <:+: call.argument := by
    simp only [← Text.contains_iff_infix]
    intro call h
    simp only [List.mem_cons, List.not_mem_nil, or_false] at h
    rcases h with rfl | rfl | rfl <;> decide
  exact ⟨fresh, runCalls_corresponds _ _ fresh⟩

end OfficeFormula.Span
