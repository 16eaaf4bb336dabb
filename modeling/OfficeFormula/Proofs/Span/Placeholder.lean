import OfficeFormula.Proofs.Span.Piece
import OfficeFormula.Proofs.Text.Search

/-!
# Placeholders in a working text

In a clean list of pieces a search for placeholders finds just the pieces that are placeholders. Where
the characters avoid one placeholder (`Avoids`), that one is found only where it is a piece
(`eq_of_prefix_spell`). From that follow the operations that look for formulas again: `expand` takes the
entries of those whose placeholders are in a text (`expand_spell_fst`), and `holdsRendered` asks for them.
-/

namespace OfficeFormula.Span

/-! ## Words that the characters avoid -/

/-- The characters nowhere make up the word. -/
def Avoids (w : Text) (ps : List Piece) : Prop := ¬w.map Piece.char <:+: ps

theorem Avoids.mono {w : Text} {ps qs : List Piece} (avoids : Avoids w ps) (h : qs <:+: ps) : Avoids w qs :=
  fun found => avoids (found.trans h)

/-- A stretch without `p` that lies in `as ++ p :: bs` lies on one side of `p`. -/
theorem infix_append_cons {α : Type} {xs as bs : List α} {p : α} (hp : p ∉ xs)
    (h : xs <:+: as ++ p :: bs) : xs <:+: as ∨ xs <:+: bs := by
  rcases List.infix_append_iff.1 h with h | h | ⟨us, vs, rfl, hus, hvs⟩
  · exact .inl h
  · rcases List.infix_cons_iff.1 h with ⟨more, h⟩ | h
    · cases xs with
      | nil => exact .inl List.nil_infix
      | cons x xs =>
        simp only [List.cons_append, List.cons.injEq] at h
        exact absurd (by simp [h.1]) hp
    · exact .inr h
  · obtain ⟨more, h⟩ := hvs
    cases vs with
    | nil => exact .inl (by simpa using hus.isInfix)
    | cons v vs =>
      simp only [List.cons_append, List.cons.injEq] at h
      exact absurd (by simp [h.1]) hp

/-- What is not a character of the word divides pieces that avoid it. -/
theorem avoids_append_cons {w : Text} {ps qs : List Piece} {p : Piece} (hp : p ∉ w.map Piece.char) :
    Avoids w (ps ++ p :: qs) ↔ Avoids w ps ∧ Avoids w qs := by
  constructor
  · intro avoids
    refine ⟨avoids.mono (List.prefix_append ps (p :: qs)).isInfix, ?_⟩
    exact avoids.mono ⟨ps ++ [p], [], by simp⟩
  · rintro ⟨left, right⟩ found
    rcases infix_append_cons hp found with h | h
    · exact left h
    · exact right h

theorem avoids_map_char {w t : Text} : Avoids w (t.map .char) ↔ ¬w <:+: t := by
  unfold Avoids
  constructor
  · intro avoids h
    exact avoids (h.map _)
  · intro fresh h
    obtain ⟨u, hu, he⟩ := List.infix_map_iff.1 h
    rw [List.map_inj_right fun a b h => by simpa using h] at he
    exact fresh (he ▸ hu)

theorem char_not_mem_map {w : Text} (plain : ∀ c ∈ w, isMark c = false) {c : Char} (mark : isMark c = true) :
    Piece.char c ∉ w.map Piece.char := by
  intro h
  obtain ⟨d, hd, he⟩ := List.mem_map.1 h
  rw [Piece.char.injEq] at he
  rw [← he, plain d hd] at mark
  simp at mark

theorem word_not_mem_map {p : Piece} (word : p.isWord = true) (w : Text) : p ∉ w.map Piece.char := by
  intro h
  obtain ⟨d, _, rfl⟩ := List.mem_map.1 h
  simp [Piece.isWord] at word

/-! ## Clean lists of pieces -/

/-- The characters nowhere make up the beginning of a placeholder. -/
def Clean (ps : List Piece) : Prop := ¬placeholderStart.map Piece.char <:+: ps

theorem Clean.mono {ps qs : List Piece} (clean : Clean ps) (h : qs <:+: ps) : Clean qs := Avoids.mono clean h

/-- What is not a character of the beginning of a placeholder divides a clean list. -/
theorem clean_append_cons {ps qs : List Piece} {p : Piece}
    (hp : p ∉ placeholderStart.map Piece.char) :
    Clean (ps ++ p :: qs) ↔ Clean ps ∧ Clean qs :=
  avoids_append_cons hp

theorem isMark_of_mem_placeholderStart : ∀ c ∈ placeholderStart, isMark c = false :=
  forall_not_of_all (by decide)

theorem char_not_mem_start {c : Char} (mark : isMark c = true) :
    Piece.char c ∉ placeholderStart.map Piece.char :=
  char_not_mem_map isMark_of_mem_placeholderStart mark

theorem word_not_mem_start {p : Piece} (word : p.isWord = true) :
    p ∉ placeholderStart.map Piece.char :=
  word_not_mem_map word placeholderStart

theorem clean_map_char {t : Text} : Clean (t.map .char) ↔ ¬placeholderStart <:+: t := avoids_map_char

/-- Clean pieces avoid every placeholder. -/
theorem Clean.avoids {ps : List Piece} (clean : Clean ps) {p : Piece} (word : p.isWord = true) :
    Avoids p.text ps := by
  obtain ⟨middle, i, text, _⟩ := text_of_isWord word
  intro found
  apply clean
  refine List.IsInfix.trans ?_ found
  rw [text, List.append_assoc, List.append_assoc, List.map_append]
  exact (List.prefix_append _ _).isInfix

/-! ## Searching for placeholders -/

theorem placeholderStart_eq :
    placeholderStart = 'M' :: ['A', 'T', 'H', 'P', 'A', 'S', 'T', 'E'] := rfl

theorem placeholderEnd_eq :
    placeholderEnd = 'P' :: ['L', 'A', 'C', 'E', 'H', 'O', 'L', 'D', 'E', 'R'] := rfl

/-- The beginning of a placeholder stands in the spelling of clean pieces only at a placeholder. -/
theorem exists_word_of_start {ps : List Piece} {b : Text} (clean : Clean ps)
    (h : spell ps = placeholderStart ++ b) : ∃ p qs, ps = p :: qs ∧ p.isWord = true := by
  rw [placeholderStart_eq] at h
  cases ps with
  | nil => simp at h
  | cons p qs =>
    refine ⟨p, qs, rfl, ?_⟩
    cases p with
    | code i => rfl
    | span i => rfl
    | char c =>
      exfalso
      simp only [spell_cons, Piece.text, List.cons_append, List.nil_append, List.cons.injEq] at h
      obtain ⟨rest, rfl, _⟩ :=
        exists_of_spell_eq_append (a := ['A', 'T', 'H', 'P', 'A', 'S', 'T', 'E']) (by decide) h.2
      apply clean
      rw [h.1, placeholderStart_eq]
      exact (List.prefix_append _ rest).isInfix

theorem takeWhile_decimal (i : Nat) (rest : Text) :
    (decimal i ++ (placeholderEnd ++ rest)).takeWhile isAsciiDigit = decimal i := by
  rw [List.takeWhile_append_of_pos fun c hc => isAsciiDigit_of_mem_decimal hc, placeholderEnd_eq,
    List.cons_append, List.takeWhile_cons_of_neg (by decide), List.append_nil]

/-- A placeholder is found where it is written, whatever follows. -/
theorem placeholderForm_span (previous : Option Char) (i : Nat) (rest : Text) :
    placeholderForm previous (placeholder i ++ rest) =
      some ⟨(placeholder i).length, placeholder i⟩ := by
  have ne := decimal_ne_nil i
  simp only [placeholderForm, placeholder, List.append_assoc, Text.after?_self_append, Option.bind_eq_bind,
    Option.bind_some, takeWhile_decimal, ne, if_false, List.drop_left, Option.pure_def,
    List.length_append]
  congr 2
  rw [show placeholderStart ++ (decimal i ++ (placeholderEnd ++ rest)) =
    (placeholderStart ++ (decimal i ++ placeholderEnd)) ++ rest by simp]
  exact List.take_left' (by simp; omega)

theorem placeholder_ne_nil (i : Nat) : placeholder i ≠ [] := by
  simp [placeholder, placeholderStart_eq]

theorem placeholder_prefix_inj {i j : Nat} {rest : Text}
    (h : placeholder j <+: placeholder i ++ rest) : j = i := by
  obtain ⟨more, h⟩ := h
  have found := placeholderForm_span none j more
  rw [h, placeholderForm_span, Option.some.injEq, Hit.mk.injEq] at found
  exact (placeholder_injective found.2).symm

theorem placeholderForm_eq_none_of_start {previous : Option Char} {t : Text}
    (h : ¬placeholderStart <+: t) : placeholderForm previous t = none := by
  have none : Text.after? placeholderStart t = none := by
    rw [← Text.startsWith_iff_prefix] at h
    simpa [Text.startsWith] using h
  simp [placeholderForm, none]

theorem placeholderForm_code (previous : Option Char) (i : Nat) (rest : Text) :
    placeholderForm previous (codePlaceholder i ++ rest) = none := by
  simp only [placeholderForm, codePlaceholder, List.append_assoc, Text.after?_self_append,
    Option.bind_eq_bind, Option.bind_some]
  rw [show "CODE".toList = ['C', 'O', 'D', 'E'] from rfl, List.cons_append,
    List.takeWhile_cons_of_neg (by decide)]
  simp

/-- No placeholder begins as another does. -/
theorem eq_of_prefix_word {p q : Piece} (hp : p.isWord = true) (hq : q.isWord = true) {rest : Text}
    (h : q.text <+: p.text ++ rest) : p = q := by
  obtain ⟨b, hb⟩ := h
  -- A number is not the beginning of `CODE`.
  have apart (i j : Nat) (a b : Text) : codePlaceholder i ++ a ≠ placeholder j ++ b := by
    intro same
    have found := placeholderForm_span none j b
    rw [← same, placeholderForm_code] at found
    cases found
  cases p with
  | char c => cases hp
  | span i =>
    cases q with
    | char c => cases hq
    | span j => rw [placeholder_prefix_inj ⟨b, hb⟩]
    | code j => exact absurd hb (apart j i b rest)
  | code i =>
    cases q with
    | char c => cases hq
    | span j => exact absurd hb.symm (apart i j rest b)
    | code j =>
      simp only [codePlaceholder, Piece.text, List.append_assoc, List.append_cancel_left_eq] at hb
      have digits := congrArg (List.takeWhile isAsciiDigit) hb
      rw [takeWhile_decimal, takeWhile_decimal] at digits
      rw [decimal_injective digits]

/-- A placeholder stands in the spelling of pieces that avoid it only as a piece. -/
theorem eq_of_prefix_spell {p q : Piece} {ps : List Piece} (word : q.isWord = true)
    (avoids : Avoids q.text (p :: ps)) (h : q.text <+: spell (p :: ps)) : p = q := by
  cases hp : p.isWord with
  | true => exact eq_of_prefix_word hp word h
  | false =>
    cases p with
    | code i => cases hp
    | span i => cases hp
    | char c =>
      exfalso
      obtain ⟨more, text, alone⟩ := exists_word_eq_cons word
      obtain ⟨b, hb⟩ := h
      rw [text, spell_cons, Piece.text, List.singleton_append, List.cons_append, List.cons.injEq] at hb
      obtain ⟨rest, rfl, _⟩ := exists_of_spell_eq_append alone hb.2.symm
      apply avoids
      rw [text, hb.1]
      exact (List.prefix_append _ rest).isInfix

/-- The character before what follows `t`, where `previous` stands before `t`. -/
def lastChar (previous : Option Char) : Text → Option Char
  | [] => previous
  | c :: cs => lastChar (some c) cs

theorem getLast?_cons_eq_lastChar (previous : Option Char) (c : Char) (cs : Text) :
    (c :: cs).getLast? = lastChar previous (c :: cs) := by
  induction cs generalizing previous c with
  | nil => rfl
  | cons d ds ih => rw [List.getLast?_cons_cons, ih (some c) d]; rfl

theorem segmentsAfter_of_none {find : Recogniser} {previous : Option Char} {c : Char} {cs : Text}
    (none : find previous (c :: cs) = none) :
    segmentsAfter find previous (c :: cs) = .plain c :: segmentsAfter find (some c) cs := by
  rw [segmentsAfter, none]

theorem segmentsAfter_of_some {find : Recogniser} {previous : Option Char} {source rest : Text}
    {hit : Hit} (ne : source ≠ []) (some : find previous (source ++ rest) = some hit)
    (length : hit.length = source.length) :
    segmentsAfter find previous (source ++ rest) =
      .found source hit.content :: segmentsAfter find (lastChar previous source) rest := by
  obtain ⟨c, cs, rfl⟩ := List.exists_cons_of_ne_nil ne
  rw [List.cons_append] at some ⊢
  rw [segmentsAfter, some]
  simp only [length, List.length_cons, Nat.add_sub_cancel, List.take_left, List.drop_left,
    getLast?_cons_eq_lastChar previous]

/-- The text that `previous` stands before, with each stretch that a recogniser finds replaced by its content. -/
def replaceAfter (find : Recogniser) (previous : Option Char) (t : Text) : Text :=
  (segmentsAfter find previous t).flatMap fun
    | .plain c => [c]
    | .found _ content => content

theorem replaceAfter_nil (find : Recogniser) (previous : Option Char) : replaceAfter find previous [] = [] := by
  rw [replaceAfter, segmentsAfter]
  rfl

theorem replaceAfter_of_none {find : Recogniser} {previous : Option Char} {c : Char} {cs : Text}
    (none : find previous (c :: cs) = none) :
    replaceAfter find previous (c :: cs) = c :: replaceAfter find (some c) cs := by
  rw [replaceAfter, segmentsAfter_of_none none]
  rfl

theorem replaceAfter_of_some {find : Recogniser} {previous : Option Char} {source rest : Text}
    {hit : Hit} (ne : source ≠ []) (some : find previous (source ++ rest) = some hit)
    (length : hit.length = source.length) :
    replaceAfter find previous (source ++ rest) =
      hit.content ++ replaceAfter find (lastChar previous source) rest := by
  rw [replaceAfter, segmentsAfter_of_some ne some length]
  rfl

/-- Where nothing is found there are only single characters. -/
theorem segmentsAfter_append {find : Recogniser} {previous : Option Char} {w t : Text}
    (none : ∀ previous u, u <:+ w → u ≠ [] → find previous (u ++ t) = none) :
    segmentsAfter find previous (w ++ t) =
      w.map .plain ++ segmentsAfter find (lastChar previous w) t := by
  induction w generalizing previous with
  | nil => rfl
  | cons c cs ih =>
    have first : find previous (c :: (cs ++ t)) = Option.none :=
      none previous (c :: cs) List.suffix_rfl (by simp)
    rw [List.cons_append, segmentsAfter_of_none first,
      ih fun previous u hu ne => none previous u (hu.trans (List.suffix_cons c cs)) ne]
    rfl

/-- A beginning with an `M` stands in a placeholder only at its head. -/
theorem not_prefix_of_suffix_word {p : Piece} (word : p.isWord = true) {u part t : Text}
    (hu : u <:+ p.text) (proper : u ≠ p.text) (ne : u ≠ []) : ¬ 'M' :: part <+: u ++ t := by
  obtain ⟨more, text, hmore⟩ := exists_word_eq_cons word
  rw [text] at hu proper
  rcases List.suffix_cons_iff.1 hu with h | h
  · exact absurd h proper
  · obtain ⟨c, cs, rfl⟩ := List.exists_cons_of_ne_nil ne
    rintro ⟨rest, hr⟩
    simp only [List.cons_append, List.cons.injEq] at hr
    exact hmore (hr.1 ▸ h.subset List.mem_cons_self)

/-- No other placeholder begins in a placeholder. -/
theorem not_prefix_of_suffix_other {p q : Piece} (hp : p.isWord = true) (hq : q.isWord = true) (ne : p ≠ q)
    {u t : Text} (suffix : u <:+ p.text) (nonempty : u ≠ []) : ¬q.text <+: u ++ t := by
  by_cases whole : u = p.text
  · rw [whole]
    exact fun h => ne (eq_of_prefix_word hp hq h)
  · obtain ⟨more, text, _⟩ := exists_word_eq_cons hq
    rw [text]
    exact not_prefix_of_suffix_word hp suffix whole nonempty

/-- The segments that a search for placeholders cuts a piece into. -/
def Piece.segments : Piece → List Segment
  | .span i => [.found (placeholder i) (placeholder i)]
  | p => p.text.map .plain

/-- A search that finds placeholders of formulas and nothing else finds those among the pieces. -/
theorem segmentsAfter_spell {find : Recogniser} {ps : List Piece} (clean : Clean ps)
    (found : ∀ i ∈ spanNumbers ps, ∀ previous rest, find previous (placeholder i ++ rest) =
      some ⟨(placeholder i).length, placeholder i⟩)
    (other : ∀ previous t, placeholderForm previous t = none → find previous t = none)
    (previous : Option Char) : segmentsAfter find previous (spell ps) = ps.flatMap Piece.segments := by
  induction ps generalizing previous with
  | nil => rw [spell_nil, segmentsAfter]; rfl
  | cons p ps ih =>
    have ih := ih (clean.mono (List.suffix_cons p ps).isInfix)
    rw [spell_cons, List.flatMap_cons]
    cases p with
    | span i =>
      rw [Piece.text, segmentsAfter_of_some (placeholder_ne_nil i)
        (found i (by simp) previous (spell ps)) rfl, ih fun j hj => found j (by simp [hj])]
      rfl
    | code i =>
      rw [segmentsAfter_append, ih found]
      · rfl
      · intro previous u hu ne
        apply other
        by_cases whole : u = (Piece.code i).text
        · rw [whole]
          exact placeholderForm_code previous i (spell ps)
        · exact placeholderForm_eq_none_of_start (not_prefix_of_suffix_word rfl hu whole ne)
    | char c =>
      have none : find previous (c :: spell ps) = none := by
        apply other
        apply placeholderForm_eq_none_of_start
        rintro ⟨b, hb⟩
        obtain ⟨p, qs, he, word⟩ := exists_word_of_start clean hb.symm
        rw [List.cons.injEq] at he
        rw [← he.1] at word
        simp [Piece.isWord] at word
      rw [Piece.text, List.cons_append, List.nil_append, segmentsAfter_of_none none, ih found]
      rfl

/-- A search for placeholders finds the pieces that are placeholders of formulas. -/
theorem segments_placeholderForm_spell {ps : List Piece} (clean : Clean ps) :
    segments placeholderForm (spell ps) = ps.flatMap Piece.segments :=
  segmentsAfter_spell clean (fun i _ previous rest => placeholderForm_span previous i rest)
    (fun _ _ none => none) none

/-! ## Taking entries over -/

theorem erase_placeholder (spans : List Entry) (i : Nat) :
    Store.erase spans (placeholder i) = spans.filter (·.index ≠ i) := by
  apply List.filter_congr
  intro e _
  have : e.word = placeholder i ↔ e.index = i :=
    ⟨placeholder_injective, fun h => by rw [Entry.word, h]⟩
  simp [this]

theorem takeOver_placeholder_fst (spans : List Entry) (i : Nat) :
    (Store.takeOver spans (placeholder i)).1 = spans.filter (·.index ≠ i) := by
  rw [← erase_placeholder, Store.takeOver]
  split
  · rfl
  · next none =>
    symm
    apply List.filter_eq_self.2
    intro e he
    have := List.find?_eq_none.1 none e he
    simpa using this

theorem substitute_plain {σ : Type} (f : σ → (source content : Text) → σ × Text) (s : σ) (t : Text)
    (rest : List Segment) :
    substitute f s (t.map .plain ++ rest) =
      ((substitute f s rest).1, t ++ (substitute f s rest).2) := by
  induction t with
  | nil => rfl
  | cons c cs ih => simp [substitute, ih]

theorem takeOver_of_unknown {spans : List Entry} {word : Text} (unknown : ∀ e ∈ spans, e.word ≠ word) :
    Store.takeOver spans word = (spans, word) := by
  have none : Store.find? spans word = none := List.find?_eq_none.2 (by simpa using unknown)
  rw [Store.takeOver, none]

/-- Whatever has the form of a placeholder begins with an `M` and has no other. -/
theorem exists_of_placeholderForm {previous : Option Char} {t : Text} {hit : Hit}
    (h : placeholderForm previous t = some hit) :
    ∃ more rest, t = ('M' :: more) ++ rest ∧ 'M' ∉ more ∧ hit = ⟨('M' :: more).length, 'M' :: more⟩ := by
  simp only [placeholderForm, Option.bind_eq_bind, Option.bind_eq_some_iff] at h
  obtain ⟨behind, hstart, h⟩ := h
  split at h
  · cases h
  · obtain ⟨rest, hend, h⟩ := Option.bind_eq_some_iff.1 h
    have split := Text.eq_takeWhile_append_drop isAsciiDigit behind
    have digits : 'M' ∉ behind.takeWhile isAsciiDigit := fun mem =>
      absurd (List.all_eq_true.1 List.all_takeWhile _ mem) (by decide)
    rw [Text.after?_eq_some_iff.1 hend] at split
    generalize behind.takeWhile isAsciiDigit = number at *
    have text : t = (placeholderStart ++ number ++ placeholderEnd) ++ rest := by
      rw [Text.after?_eq_some_iff.1 hstart, split]
      simp
    have word : placeholderStart ++ number ++ placeholderEnd =
        'M' :: (['A', 'T', 'H', 'P', 'A', 'S', 'T', 'E'] ++ number ++ placeholderEnd) := rfl
    refine ⟨_, rest, word ▸ text, ?_, ?_⟩
    · have stop : 'M' ∉ placeholderEnd := by decide
      simp [digits, stop]
    · rw [← word, ← Option.some.inj h]
      simp only [text, List.length_append, Hit.mk.injEq, true_and]
      exact List.take_left' (by simp only [List.length_append])

/-- Expanding a text takes away the entries of the formulas whose placeholders are in it. -/
theorem expand_spell_fst {ps : List Piece} {spans : List Entry} (free : ∀ e ∈ spans, Avoids e.word ps) :
    (Store.expand spans (spell ps)).1 = spans.filter (·.index ∉ spanNumbers ps) := by
  rw [Store.expand, segments]
  generalize none = previous
  generalize hn : ps.length = n
  induction n using Nat.strongRecOn generalizing previous ps spans with
  | ind n ih =>
    cases ps with
    | nil =>
      rw [spell_nil, segmentsAfter]
      exact (List.filter_eq_self.2 (by simp)).symm
    | cons p ps =>
      have shorter : ps.length < n := by simp [← hn]
      have later : ∀ e ∈ spans, Avoids e.word ps := fun e he =>
        (free e he).mono (List.suffix_cons p ps).isInfix
      rw [spell_cons]
      cases p with
      | span i =>
        rw [Piece.text, segmentsAfter_of_some (placeholder_ne_nil i) (placeholderForm_span _ _ _) rfl]
        simp only [substitute, takeOver_placeholder_fst]
        rw [ih _ shorter (fun e he => later e (List.mem_filter.1 he).1) _ rfl, List.filter_filter]
        apply List.filter_congr
        intro e _
        simp [Bool.and_comm]
      | code i =>
        have none : ∀ previous u, u <:+ (Piece.code i).text → u ≠ [] →
            placeholderForm previous (u ++ spell ps) = none := by
          intro previous u hu ne
          by_cases whole : u = (Piece.code i).text
          · rw [whole]
            exact placeholderForm_code previous i (spell ps)
          · exact placeholderForm_eq_none_of_start (not_prefix_of_suffix_word rfl hu whole ne)
        rw [segmentsAfter_append none, substitute_plain, spanNumbers_code]
        exact ih _ shorter later _ rfl
      | char c =>
        rw [Piece.text, List.singleton_append]
        cases found : placeholderForm previous (c :: spell ps) with
        | none =>
          rw [segmentsAfter_of_none found, spanNumbers_char]
          exact ih _ shorter later _ rfl
        | some hit =>
          -- What only looks like a placeholder is made up of characters, and stands for no entry.
          obtain ⟨more, rest, text, alone, rfl⟩ := exists_of_placeholderForm found
          rw [List.cons_append, List.cons.injEq] at text
          obtain ⟨qs, rfl, rfl⟩ := exists_of_spell_eq_append alone text.2
          have unknown : ∀ e ∈ spans, e.word ≠ 'M' :: more := by
            intro e he same
            apply free e he
            rw [same, text.1]
            exact (List.prefix_append _ qs).isInfix
          have qsLater : ∀ e ∈ spans, Avoids e.word qs := fun e he =>
            (later e he).mono (List.suffix_append _ qs).isInfix
          rw [text.1, spell_append, spell_map_char, ← List.cons_append] at found ⊢
          rw [segmentsAfter_of_some (by simp) found rfl]
          simp only [substitute, takeOver_of_unknown unknown]
          rw [ih qs.length (by simp at shorter; omega) qsLater _ rfl]
          simp

/-- What setting a formula aside leaves: the entries of the formulas that it takes in go, and its own
comes last. -/
theorem spans_add_spell (s : Store) (kind : Kind) {cs : List Piece} (free : ∀ e ∈ s.spans, Avoids e.word cs) :
    (s.add kind (spell cs)).1.spans = s.spans.filter (·.index ∉ spanNumbers cs) ++
      [⟨s.next, kind, Store.restoreCode s.code (Store.expand s.spans (spell cs)).2⟩] := by
  simp only [Store.add, expand_spell_fst free]

/-- Clean pieces avoid the words of all entries. -/
theorem Clean.avoids_entry {ps : List Piece} (clean : Clean ps) (e : Entry) : Avoids e.word ps :=
  clean.avoids (p := .span e.index) rfl

/-- A text without placeholders of formulas stays as it is when it is expanded. -/
theorem expand_spell_snd {ps : List Piece} (clean : Clean ps) (none : spanNumbers ps = [])
    (spans : List Entry) : (Store.expand spans (spell ps)).2 = spell ps := by
  rw [Store.expand, segments_placeholderForm_spell clean]
  clear clean
  induction ps with
  | nil => rfl
  | cons p ps ih =>
    cases p with
    | span i => simp at none
    | code i => rw [List.flatMap_cons, Piece.segments, substitute_plain, ih none, spell_cons]; simp
    | char c => rw [List.flatMap_cons, Piece.segments, substitute_plain, ih none, spell_cons]; simp

theorem placeholdersIn_spell {ps : List Piece} (clean : Clean ps) :
    placeholdersIn (spell ps) = (spanNumbers ps).map placeholder := by
  rw [placeholdersIn, segments_placeholderForm_spell clean]
  clear clean
  induction ps with
  | nil => rfl
  | cons p ps ih =>
    rw [List.flatMap_cons, List.filterMap_append, ih]
    cases p with
    | span i => rfl
    | code i => simp [Piece.segments, List.filterMap_map]
    | char c => rfl

/-- A number belongs to one entry. -/
theorem eq_of_index_eq {spans : List Entry} (sorted : spans.Pairwise (·.index < ·.index))
    {e e' : Entry} (he : e ∈ spans) (he' : e' ∈ spans) (same : e.index = e'.index) : e = e' := by
  induction sorted with
  | nil => simp at he
  | @cons a _ first _ ih =>
    rcases List.mem_cons.1 he with rfl | left <;> rcases List.mem_cons.1 he' with rfl | right
    · rfl
    · exact absurd same (Nat.ne_of_lt (first e' right))
    · exact absurd same.symm (Nat.ne_of_lt (first e left))
    · exact ih left right

theorem find?_word {spans : List Entry} (sorted : spans.Pairwise (·.index < ·.index)) {e : Entry}
    (he : e ∈ spans) : Store.find? spans e.word = some e := by
  cases other : Store.find? spans e.word with
  | none => simpa using List.find?_eq_none.1 other e he
  | some e' =>
    have word : e'.word = e.word := by simpa using List.find?_some other
    rw [eq_of_index_eq sorted (List.mem_of_find?_eq_some other) he (placeholder_injective word)]

/-- Text that takes in the placeholder of rendered markup is known to do so. -/
theorem holdsRendered_spell {s : Store} (sorted : s.spans.Pairwise (·.index < ·.index))
    {ps : List Piece} (clean : Clean ps) {e : Entry} (he : e ∈ s.spans) (rendered : e.kind = .rendered)
    (inside : e.index ∈ spanNumbers ps) : s.holdsRendered (spell ps) = true := by
  have found := find?_word sorted he
  rw [Store.holdsRendered, placeholdersIn_spell clean, List.any_map, List.any_eq_true]
  refine ⟨e.index, inside, ?_⟩
  rw [Entry.word] at found
  simp [found, rendered]

end OfficeFormula.Span
