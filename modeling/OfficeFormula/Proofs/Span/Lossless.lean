import OfficeFormula.Proofs.Span.Working

/-!
# Setting formulas aside loses nothing

Every formula that is set aside has a source in the text. With the sources in place of the
placeholders the text is whole again, and code is never cut: it lies inside one source or outside all
of them (`protectWith_lossless`).
-/

namespace OfficeFormula.Span

/-! ## Replacing words -/

/-- Looks for one of some words. -/
def wordIn (words : List Text) : Recogniser := fun _ t =>
  (words.find? (Text.startsWith · t)).map fun word => ⟨word.length, word⟩

/-- A segment with something new in place of a found word. -/
def Segment.replaced (new : Text → Text) : Segment → Text
  | plain c => [c]
  | found _ word => new word

/-- The text with something new in place of each of the words, all at once. -/
def replaceWords (words : List Text) (new : Text → Text) (t : Text) : Text :=
  (segments (wordIn words) t).flatMap (Segment.replaced new)

/-- `word` is one of the words that are replaced in a text, and `before` stands before it there after
the replacement. -/
def ReplacedAt (words : List Text) (new : Text → Text) (t before word : Text) : Prop :=
  ∃ xs source ys, segments (wordIn words) t = xs ++ .found source word :: ys ∧
    before = xs.flatMap (Segment.replaced new)

/-- A stretch of a text. -/
structure Stretch where
  start : Nat
  stop : Nat

namespace Stretch

/-- The stretch that `t` takes behind `before`. -/
def behind (before t : Text) : Stretch := ⟨before.length, before.length + t.length⟩

def Inside (a b : Stretch) : Prop := b.start ≤ a.start ∧ a.stop ≤ b.stop

def Outside (a b : Stretch) : Prop := a.stop ≤ b.start ∨ b.stop ≤ a.start

end Stretch

section Words

variable {numbers : List Nat} {ps : List Piece}

theorem wordIn_placeholder {i : Nat} (mem : i ∈ numbers) (previous : Option Char) (rest : Text) :
    wordIn (numbers.map placeholder) previous (placeholder i ++ rest) =
      some ⟨(placeholder i).length, placeholder i⟩ := by
  unfold wordIn
  cases found : (numbers.map placeholder).find? (Text.startsWith · (placeholder i ++ rest)) with
  | none =>
    have := List.find?_eq_none.1 found (placeholder i) (List.mem_map_of_mem mem)
    rw [Text.startsWith_iff_prefix] at this
    exact absurd (List.prefix_append _ _) this
  | some word =>
    obtain ⟨j, _, rfl⟩ := List.mem_map.1 (List.mem_of_find?_eq_some found)
    have starts := List.find?_some found
    rw [Text.startsWith_iff_prefix] at starts
    rw [placeholder_prefix_inj starts, Option.map_some]

theorem wordIn_eq_none {previous : Option Char} {t : Text} (none : placeholderForm previous t = none) :
    wordIn (numbers.map placeholder) previous t = Option.none := by
  unfold wordIn
  rw [Option.map_eq_none_iff, List.find?_eq_none]
  intro word mem starts
  obtain ⟨i, _, rfl⟩ := List.mem_map.1 mem
  obtain ⟨rest, rfl⟩ := Text.startsWith_iff_prefix.1 starts
  simp [placeholderForm_span] at none

theorem segments_wordIn_spell (clean : Clean ps) (all : ∀ i ∈ spanNumbers ps, i ∈ numbers) :
    segments (wordIn (numbers.map placeholder)) (spell ps) = ps.flatMap Piece.segments :=
  segmentsAfter_spell clean (fun i hi => wordIn_placeholder (all i hi))
    (fun _ _ none => wordIn_eq_none none) none

end Words

/-- A text for every word, with a given one for each placeholder. -/
theorem exists_source (f : Nat → Text) : ∃ source : Text → Text, ∀ i, source (placeholder i) = f i := by
  classical
  refine ⟨fun word => if h : ∃ i, placeholder i = word then f h.choose else [], fun i => ?_⟩
  have some : ∃ j, placeholder j = placeholder i := ⟨i, rfl⟩
  refine (dif_pos some).trans ?_
  rw [placeholder_injective some.choose_spec]

/-! ## Sources in place of placeholders -/

section Sources

variable {codes : List Text} {σ : Nat → List Piece} {source : Text → Text}

/-- A placeholder whose code has been put back reads as the text that it stands for. -/
theorem flatMap_replaced_restored (sources : ∀ i, source (placeholder i) = readBack codes (σ i))
    (p : Piece) :
    ((p.restored 0 codes).flatMap Piece.segments).flatMap (Segment.replaced source) =
      readBack codes (p.source σ) := by
  have plain (t : Text) : (t.map Segment.plain).flatMap (Segment.replaced source) = t := by
    rw [List.flatMap_map, show (fun c => (Segment.plain c).replaced source) = ([·]) from rfl,
      List.flatMap_singleton']
  cases p with
  | char c => rfl
  | span i => simp [Piece.restored, Piece.segments, Segment.replaced, sources, Piece.source]
  | code i =>
    unfold Piece.source readBack
    rw [List.flatMap_cons, List.flatMap_nil, List.append_nil]
    cases h : codes[i]? with
    | none => simp [Piece.restored, h, Piece.segments, plain]
    | some t =>
      simp only [Piece.restored, Nat.not_lt_zero, if_false, Nat.sub_zero, h, spell_map_char]
      rw [List.flatMap_map, show (fun c => (Piece.char c).segments) = ([.plain ·]) from rfl,
        ← List.map_eq_flatMap, plain]

theorem flatMap_replaced (sources : ∀ i, source (placeholder i) = readBack codes (σ i))
    (ps : List Piece) :
    ((ps.flatMap (Piece.restored 0 codes)).flatMap Piece.segments).flatMap (Segment.replaced source) =
      readBack codes (ps.flatMap (Piece.source σ)) := by
  induction ps with
  | nil => rfl
  | cons p ps ih =>
    simp only [List.flatMap_cons, List.flatMap_append, readBack_append, ih,
      flatMap_replaced_restored sources]

end Sources

/-! ## Code in the text -/

/-- An item of a list of three parts lies in one of them. -/
theorem exists_part_of_append {α : Type} {a : α} {us vs xs ys zs : List α}
    (h : us ++ a :: vs = xs ++ ys ++ zs) :
    (∃ ws, xs = us ++ a :: ws) ∨ (∃ ws ws', us = xs ++ ws ∧ ys = ws ++ a :: ws') ∨
      ∃ ws, us = xs ++ ys ++ ws := by
  rcases List.append_eq_append_iff.1 h with ⟨ws, hxy, hvs⟩ | ⟨ws, hus, _⟩
  · cases ws with
    | nil => exact .inr (.inr ⟨[], by simpa using hxy.symm⟩)
    | cons w ws =>
      rw [List.cons_append, List.cons.injEq] at hvs
      obtain ⟨rfl, _⟩ := hvs
      rcases List.append_eq_append_iff.1 hxy with ⟨ws', hus, hys⟩ | ⟨ws', hxs, hws⟩
      · exact .inr (.inl ⟨ws', ws, hus, hys⟩)
      · cases ws' with
        | nil => exact .inr (.inl ⟨[], ws, by simpa using hxs.symm, by simpa using hws.symm⟩)
        | cons w ws' =>
          rw [List.cons_append, List.cons.injEq] at hws
          exact .inl ⟨ws', by rw [hxs, hws.1]⟩
  · exact .inr (.inr ⟨ws, hus⟩)

/-- A piece of the first text lies inside what stands for a formula, or outside of it. -/
theorem inside_or_outside (codes : List Text) {i : Nat} {us vs xs ys zs : List Piece}
    (h : us ++ .code i :: vs = xs ++ ys ++ zs) :
    (Stretch.behind (readBack codes us) (readBack codes [.code i])).Inside
        (.behind (readBack codes xs) (readBack codes ys)) ∨
      (Stretch.behind (readBack codes us) (readBack codes [.code i])).Outside
        (.behind (readBack codes xs) (readBack codes ys)) := by
  unfold Stretch.Inside Stretch.Outside Stretch.behind
  rcases exists_part_of_append h with ⟨ws, rfl⟩ | ⟨ws, ws', rfl, rfl⟩ | ⟨ws, rfl⟩
  · right
    left
    rw [readBack_append, readBack_cons _ _ ws]
    simp only [List.length_append]
    omega
  · left
    rw [readBack_append, readBack_append, readBack_cons _ _ ws']
    simp only [List.length_append]
    omega
  · right
    right
    rw [readBack_append, readBack_append]
    simp only [List.length_append]
    omega

/-! ## The whole text -/

/-- Where a placeholder is replaced, the working text is cut. -/
theorem exists_of_replacedAt {numbers : List Nat} {codes : List Text} {σ : Nat → List Piece}
    {source : Text → Text} {ps : List Piece} {before word : Text}
    (sources : ∀ i, source (placeholder i) = readBack codes (σ i))
    (clean : Clean (ps.flatMap (Piece.restored 0 codes)))
    (all : ∀ i ∈ spanNumbers (ps.flatMap (Piece.restored 0 codes)), i ∈ numbers)
    (h : ReplacedAt (numbers.map placeholder) source (spell (ps.flatMap (Piece.restored 0 codes)))
      before word) :
    ∃ us i vs, ps = us ++ .span i :: vs ∧ word = placeholder i ∧
      before = readBack codes (us.flatMap (Piece.source σ)) := by
  obtain ⟨xs, found, ys, cut, rfl⟩ := h
  rw [segments_wordIn_spell clean all] at cut
  obtain ⟨as, p, cs, split, here, rfl, _⟩ := exists_of_flatMap_eq_append_cons
    (fun p _ mem => by cases p <;> simp_all [Piece.segments]) cut
  cases p with
  | char c => simp [Piece.segments, Piece.text] at here
  | code i =>
    have mem : Segment.found found word ∈ (Piece.code i).segments := by simp [here]
    simp [Piece.segments] at mem
  | span i =>
    simp only [Piece.segments, List.cons.injEq, Segment.found.injEq, and_true] at here
    obtain ⟨us, p, vs, rfl, restored, rfl, _⟩ := exists_of_flatMap_eq_append_cons
      (fun p _ mem => by rw [eq_span_of_mem_restored mem]; rfl) split
    have mem : .span i ∈ p.restored 0 codes := by rw [restored]; exact List.mem_cons_self
    have span : p = .span i := eq_span_of_mem_restored mem
    exact ⟨us, i, vs, by rw [span], here.2.symm, flatMap_replaced sources us⟩

/-- `source` tells, for each word that stands for a formula of the store, the text that it was made
from. -/
structure Recovers (s : Store) (carrier t : Text) (source : Text → Text) : Prop where
  /-- With the sources in place of the words the text is whole again. -/
  text : replaceWords (s.spans.map Entry.word) source carrier = t
  /-- Each source is a part of the text, written in a form of the formula's kind. -/
  formed : ∀ e ∈ s.spans, source e.word <:+: t ∧ ∃ opening inner closing,
    Delimits e.kind opening closing ∧ source e.word = opening ++ inner ++ closing
  /-- Code lies inside the source of one formula or outside of all. -/
  code : ∀ before code, CodeRegion .empty t before code → before ++ code <+: t ∧
    ((∃ before' word, ReplacedAt (s.spans.map Entry.word) source carrier before' word ∧
        (Stretch.behind before code).Inside (.behind before' (source word))) ∨
      ∀ before' word, ReplacedAt (s.spans.map Entry.word) source carrier before' word →
        (Stretch.behind before code).Outside (.behind before' (source word)))

theorem map_word_spans (s : Store) : s.spans.map Entry.word = (s.spans.map Entry.index).map placeholder := by
  rw [List.map_map]
  rfl

section Recovery

variable {region : (before code : Text) → Prop} {t : Text} {s : Store} {codes : List Text}
  {first ps : List Piece} {σ : Nat → List Piece} {source : Text → Text}

/-- Each source is a part of the text, written in a form of the formula's kind. -/
theorem source_formed (stashed : Stashed region t codes first) (tracks : Tracks first [] codes σ s ps)
    (sources : ∀ i, source (placeholder i) = readBack codes (σ i)) {e : Entry} (he : e ∈ s.spans) :
    source e.word <:+: t ∧ ∃ opening inner closing,
      Delimits e.kind opening closing ∧ source e.word = opening ++ inner ++ closing := by
  have here : e.index ∈ spanNumbers ps := tracks.numbers.mem_iff.1 (List.mem_map_of_mem he)
  rw [Entry.word, sources]
  constructor
  · obtain ⟨us, vs, rfl⟩ := List.append_of_mem (mem_spanNumbers.1 here)
    rw [← stashed.text, ← tracks.source]
    refine ⟨readBack codes (us.flatMap (Piece.source σ)), readBack codes (vs.flatMap (Piece.source σ)), ?_⟩
    simp [Piece.source]
  · obtain ⟨opening, inner, closing, delimits, shape⟩ := tracks.formed e he here
    exact ⟨opening, readBack codes inner, closing, delimits, by simp [shape]⟩

/-- Code lies inside or outside of each stretch that a placeholder stands for. -/
theorem code_inside_or_outside (tracks : Tracks first [] codes σ s ps) {us vs : List Piece} {i : Nat}
    (split : first = us ++ .code i :: vs) {us' vs' : List Piece} {j : Nat}
    (pieces : ps = us' ++ .span j :: vs') :
    (Stretch.behind (readBack codes us) (readBack codes [.code i])).Inside
        (.behind (readBack codes (us'.flatMap (Piece.source σ))) (readBack codes (σ j))) ∨
      (Stretch.behind (readBack codes us) (readBack codes [.code i])).Outside
        (.behind (readBack codes (us'.flatMap (Piece.source σ))) (readBack codes (σ j))) := by
  have whole := tracks.source
  rw [pieces, List.flatMap_append, List.flatMap_cons, ← List.append_assoc, split] at whole
  exact inside_or_outside codes whole.symm

theorem mem_index_of_mem_restored (tracks : Tracks first [] codes σ s ps) :
    ∀ i ∈ spanNumbers (ps.flatMap (Piece.restored 0 codes)), i ∈ s.spans.map Entry.index := by
  intro i hi
  rw [spanNumbers_flatMap_restored] at hi
  exact tracks.numbers.mem_iff.2 hi

/-- With the sources in place of the words the text is whole again. -/
theorem replaceWords_readBack (stashed : Stashed region t codes first)
    (tracks : Tracks first [] codes σ s ps)
    (sources : ∀ i, source (placeholder i) = readBack codes (σ i)) :
    replaceWords (s.spans.map Entry.word) source (readBack codes ps) = t := by
  have clean := clean_flatMap_restored stashed.isCode tracks.clean
  rw [map_word_spans, replaceWords, readBack,
    segments_wordIn_spell clean (mem_index_of_mem_restored tracks), flatMap_replaced sources,
    tracks.source, stashed.text]

/-- A word is replaced where the working text has its placeholder. -/
theorem replacedAt_iff (stashed : Stashed region t codes first) (tracks : Tracks first [] codes σ s ps)
    (sources : ∀ i, source (placeholder i) = readBack codes (σ i)) {before word : Text} :
    ReplacedAt (s.spans.map Entry.word) source (readBack codes ps) before word ↔
      ∃ us i vs, ps = us ++ .span i :: vs ∧ word = placeholder i ∧
        before = readBack codes (us.flatMap (Piece.source σ)) := by
  have clean := clean_flatMap_restored stashed.isCode tracks.clean
  have all := mem_index_of_mem_restored tracks
  rw [map_word_spans]
  constructor
  · exact exists_of_replacedAt sources clean all
  · rintro ⟨us, i, vs, split, rfl, rfl⟩
    refine ⟨(us.flatMap (Piece.restored 0 codes)).flatMap Piece.segments, placeholder i,
      (vs.flatMap (Piece.restored 0 codes)).flatMap Piece.segments, ?_, (flatMap_replaced sources us).symm⟩
    rw [readBack, segments_wordIn_spell clean all, split]
    simp [Piece.restored, Piece.segments]

end Recovery

/-- Setting formulas aside loses nothing, whatever counts as a formula in plain parentheses. -/
theorem protectWith_lossless (soft : SoftParentheses) {t : Text} (fresh : ¬placeholderStart <:+: t) :
    ∃ source, Recovers (protectWith soft .empty t).1 (protectWith soft .empty t).2 t source := by
  have start : (Store.empty.spans.map Entry.index).Perm [] := .nil
  obtain ⟨codes, first, ps, stashed, ⟨σ, tracks⟩, text⟩ :=
    exists_working soft (by simp [Store.empty]) fresh start (by simp [Store.empty])
      (by simp [Store.empty])
  obtain ⟨source, sources⟩ := exists_source fun i => readBack codes (σ i)
  rw [text]
  generalize (protectWith soft .empty t).1 = s at tracks
  have words := map_word_spans s
  have clean := clean_flatMap_restored stashed.isCode tracks.clean
  have all : ∀ i ∈ spanNumbers (ps.flatMap (Piece.restored 0 codes)), i ∈ s.spans.map Entry.index := by
    intro i hi
    rw [spanNumbers_flatMap_restored] at hi
    exact tracks.numbers.mem_iff.2 hi
  refine ⟨source, ?text, fun e he => source_formed stashed tracks sources he, ?code⟩
  case text =>
    rw [words, replaceWords, segments_wordIn_spell clean all, flatMap_replaced sources, tracks.source,
      stashed.text]
  case code =>
    intro before code region
    obtain ⟨us, i, vs, split, rfl, rfl⟩ := stashed.regions before code region
    refine ⟨⟨readBack codes vs, by rw [← stashed.text, split, readBack_append, readBack_cons _ _ vs,
      List.append_assoc]⟩, ?_⟩
    rw [words]
    by_cases inside : ∃ before' word,
        ReplacedAt ((s.spans.map Entry.index).map placeholder) source
          (spell (ps.flatMap (Piece.restored 0 codes))) before' word ∧
        (Stretch.behind (readBack codes us) (readBack codes [.code i])).Inside
          (.behind before' (source word))
    · exact .inl inside
    · right
      intro before' word replaced
      obtain ⟨us', j, vs', pieces, rfl, rfl⟩ := exists_of_replacedAt sources clean all replaced
      have sides := code_inside_or_outside tracks split pieces
      rw [← sources] at sides
      exact sides.resolve_left fun within => inside ⟨_, _, replaced, within⟩

theorem protectWith_lossless_nested :
    ¬placeholderStart <:+: "```\n$a$\n```\n$x `$y$` z$ [(b_1)](c) (d_2)".toList ∧
      ∃ source, Recovers
        (protectWith ⟨true, looksLikeMath⟩ .empty "```\n$a$\n```\n$x `$y$` z$ [(b_1)](c) (d_2)".toList).1
        (protectWith ⟨true, looksLikeMath⟩ .empty "```\n$a$\n```\n$x `$y$` z$ [(b_1)](c) (d_2)".toList).2
        "```\n$a$\n```\n$x `$y$` z$ [(b_1)](c) (d_2)".toList source := by
  have fresh : ¬placeholderStart <:+: "```\n$a$\n```\n$x `$y$` z$ [(b_1)](c) (d_2)".toList := by
    rw [← Text.contains_iff_infix]
    decide
  exact ⟨fresh, protectWith_lossless _ fresh⟩

end OfficeFormula.Span
