import OfficeFormula.Proofs.Span.Lossless

/-!
# Formulas put back

Formulas are put back by one literal replacement after the other, each in a text that already has the
results of earlier ones in it. That gives the same as replacing all placeholders at once
(`restore_eq_replaceWords`), for three reasons.

* No two placeholders overlap: each begins with an `M` and has no other.
* No placeholder begins inside a result or before it and ends behind it: a result has no placeholder in
  it, and is enclosed in angle brackets, which placeholders do not have.
* At most one placeholder begins at a place, so that their order does not matter.
-/

namespace OfficeFormula

namespace Text

/-- What begins a text after a replacement has begun it before, unless it has the first character of the
replacement in it. -/
theorem prefix_of_prefix_replaceAll {part new : Text} (ne : part ≠ []) {mark : Char}
    (first : new.head? = some mark) {w t : Text} (free : mark ∉ w) (h : w <+: replaceAll part new t) :
    w <+: t := by
  induction w generalizing t with
  | nil => exact List.nil_prefix
  | cons d w ih =>
    by_cases found : part <+: t
    · -- The replacement begins here, and its first character would be `d`.
      obtain ⟨rest, rfl⟩ := found
      obtain ⟨more, rfl⟩ := List.head?_eq_some_iff.1 first
      rw [replaceAll_append ne, List.cons_append, List.cons_prefix_cons] at h
      exact absurd (by simp [h.1]) free
    · cases t with
      | nil =>
        rw [replaceAll_nil ne] at h
        simp at h
      | cons c cs =>
        rw [replaceAll_cons ne new found, List.cons_prefix_cons] at h
        rw [List.cons_prefix_cons]
        exact ⟨h.1, ih (fun mem => free (List.mem_cons_of_mem d mem)) h.2⟩

end Text

namespace Span

/-! ## Replacing words all at once -/

section Words

variable {words : List Text} {new : Text → Text}

theorem wordIn_eq_none_iff {previous : Option Char} {t : Text} :
    wordIn words previous t = none ↔ ∀ word ∈ words, ¬word <+: t := by
  rw [wordIn, Option.map_eq_none_iff, List.find?_eq_none]
  simp only [Text.startsWith_iff_prefix]

/-- What stands before a text does not matter for the words in it. -/
theorem segmentsAfter_wordIn (previous : Option Char) (t : Text) :
    segmentsAfter (wordIn words) previous t = segments (wordIn words) t := by
  cases t with
  | nil => rw [segments, segmentsAfter, segmentsAfter]
  | cons c cs =>
    have same : wordIn words previous (c :: cs) = wordIn words none (c :: cs) := rfl
    rw [segments, segmentsAfter, segmentsAfter, same]

theorem replaceWords_nil : replaceWords words new [] = [] := by
  rw [replaceWords, segments, segmentsAfter]
  rfl

theorem replaceWords_cons {c : Char} {cs : Text} (other : ∀ word ∈ words, ¬word <+: c :: cs) :
    replaceWords words new (c :: cs) = c :: replaceWords words new cs := by
  rw [replaceWords, segments, segmentsAfter_of_none (wordIn_eq_none_iff.2 other), segmentsAfter_wordIn]
  rfl

theorem replaceWords_append {word rest : Text} (ne : word ≠ [])
    (found : wordIn words none (word ++ rest) = some ⟨word.length, word⟩) :
    replaceWords words new (word ++ rest) = new word ++ replaceWords words new rest := by
  rw [replaceWords, segments, segmentsAfter_of_some ne found rfl, segmentsAfter_wordIn]
  rfl

/-- Where no word begins, nothing is replaced. -/
theorem replaceWords_append_of_not {w t : Text}
    (other : ∀ u, u <:+ w → u ≠ [] → ∀ word ∈ words, ¬word <+: u ++ t) :
    replaceWords words new (w ++ t) = w ++ replaceWords words new t := by
  induction w with
  | nil => rfl
  | cons c cs ih =>
    have first : ∀ word ∈ words, ¬word <+: c :: (cs ++ t) := other (c :: cs) List.suffix_rfl (by simp)
    rw [List.cons_append, replaceWords_cons first,
      ih fun u hu ne => other u (hu.trans (List.suffix_cons c cs)) ne]
    rfl

theorem replaceWords_of_no_words (t : Text) : replaceWords [] new t = t := by
  have same : replaceWords [] new (t ++ []) = t ++ replaceWords [] new [] :=
    replaceWords_append_of_not (by simp)
  simpa [replaceWords_nil] using same

end Words

/-! ## Results between angle brackets -/

/-- A text that begins and ends as markup does. -/
structure Enclosed (t : Text) : Prop where
  first : t.head? = some '<'
  last : t.getLast? = some '>'

theorem placeholderStart_prefix_placeholder (i : Nat) : placeholderStart <+: placeholder i := by
  rw [placeholder, List.append_assoc]
  exact List.prefix_append _ _

theorem not_mem_placeholder_of_isMark {c : Char} (mark : isMark c = true) (i : Nat) :
    c ∉ placeholder i := by
  intro mem
  have plain := isMark_eq_false_of_mem_word (p := .span i) rfl c mem
  simp [plain] at mark

/-- A placeholder that begins in a result ends in it. -/
theorem Enclosed.infix_of_prefix {t u rest : Text} (enclosed : Enclosed t) (suffix : u <:+ t)
    (ne : u ≠ []) {i : Nat} (h : placeholder i <+: u ++ rest) : placeholder i <:+: t := by
  obtain ⟨behind, h⟩ := h
  rcases List.append_eq_append_iff.1 h with ⟨more, inside, _⟩ | ⟨more, word, _⟩
  · exact (inside ▸ List.prefix_append (placeholder i) more).isInfix.trans suffix.isInfix
  · -- The whole of `u` is in the placeholder, with the bracket that it ends with.
    have last : '>' ∈ u := by
      apply List.mem_of_getLast?
      obtain ⟨before, rfl⟩ := suffix
      rw [← enclosed.last, List.getLast?_append, List.getLast?_eq_some_getLast ne, Option.some_or]
    exact absurd (by simp [word, last]) (not_mem_placeholder_of_isMark (c := '>') (by decide) i)

/-! ## One formula after the other -/

section Restoring

variable {numbers : List Nat} {resolver : Text → Text}

/-- Replacing one placeholder first, and the others after it, replaces them all. -/
theorem replaceWords_replaceAll {i : Nat} (enclosed : Enclosed (resolver (placeholder i)))
    (fresh : ∀ j ∈ numbers, ¬placeholder j <:+: resolver (placeholder i)) (t : Text) :
    replaceWords (numbers.map placeholder) resolver
        (Text.replaceAll (placeholder i) (resolver (placeholder i)) t) =
      replaceWords ((i :: numbers).map placeholder) resolver t := by
  have ne := placeholder_ne_nil i
  by_cases found : ∃ j ∈ i :: numbers, placeholder j <+: t
  · obtain ⟨j, mem, rest, split⟩ := found
    have shorter : rest.length < t.length := by
      have long := List.length_pos_iff.2 (placeholder_ne_nil j)
      rw [← split, List.length_append]
      omega
    have ih := replaceWords_replaceAll enclosed fresh rest
    subst split
    rw [replaceWords_append (placeholder_ne_nil j) (wordIn_placeholder mem none rest), ← ih]
    by_cases same : j = i
    · subst same
      rw [Text.replaceAll_append ne]
      apply replaceWords_append_of_not
      intro u suffix nonempty word hword starts
      obtain ⟨k, hk, rfl⟩ := List.mem_map.1 hword
      exact fresh k hk (enclosed.infix_of_prefix suffix nonempty starts)
    · have later : j ∈ numbers := (List.mem_cons.1 mem).resolve_left same
      have apart : Piece.span j ≠ .span i := by simpa using same
      have other : ∀ u, u <:+ placeholder j → u ≠ [] → ¬placeholder i <+: u ++ rest :=
        fun _ => not_prefix_of_suffix_other (p := .span j) (q := .span i) rfl rfl apart
      rw [Text.replaceAll_append_of_not ne _ other,
        replaceWords_append (placeholder_ne_nil j) (wordIn_placeholder later none _)]
  · have none : ∀ word ∈ (i :: numbers).map placeholder, ¬word <+: t := by
      intro word hword starts
      obtain ⟨j, hj, rfl⟩ := List.mem_map.1 hword
      exact found ⟨j, hj, starts⟩
    cases t with
    | nil => rw [Text.replaceAll_nil ne, replaceWords_nil, replaceWords_nil]
    | cons c cs =>
      have ih := replaceWords_replaceAll enclosed fresh cs
      have here : ¬placeholder i <+: c :: cs := none _ (by simp)
      -- The replacement further on begins with a bracket, so that no placeholder has come about here.
      have others : ∀ word ∈ numbers.map placeholder,
          ¬word <+: c :: Text.replaceAll (placeholder i) (resolver (placeholder i)) cs := by
        intro word hword starts
        obtain ⟨j, hj, rfl⟩ := List.mem_map.1 hword
        rw [← Text.replaceAll_cons ne _ here] at starts
        have before := Text.prefix_of_prefix_replaceAll ne enclosed.first
          (not_mem_placeholder_of_isMark (by decide) j) starts
        exact none _ (List.mem_map_of_mem (List.mem_cons_of_mem i hj)) before
      rw [Text.replaceAll_cons ne _ here, replaceWords_cons others, replaceWords_cons none, ih]
termination_by t.length
decreasing_by
  · exact shorter
  · simp

/-- Which placeholders there are decides what is replaced, and not their order. -/
theorem replaceWords_congr {numbers' : List Nat} (same : ∀ i, i ∈ numbers ↔ i ∈ numbers') (t : Text) :
    replaceWords (numbers.map placeholder) resolver t =
      replaceWords (numbers'.map placeholder) resolver t := by
  have words : wordIn (numbers.map placeholder) = wordIn (numbers'.map placeholder) := by
    funext previous t
    by_cases found : ∃ i ∈ numbers, placeholder i <+: t
    · obtain ⟨i, mem, rest, rfl⟩ := found
      rw [wordIn_placeholder mem, wordIn_placeholder ((same i).1 mem)]
    · have none {ns : List Nat} (sub : ∀ i ∈ ns, i ∈ numbers) :
          wordIn (ns.map placeholder) previous t = none := by
        rw [wordIn_eq_none_iff]
        intro word hword starts
        obtain ⟨i, hi, rfl⟩ := List.mem_map.1 hword
        exact found ⟨i, sub i hi, starts⟩
      rw [none fun _ hi => hi, none fun i hi => (same i).2 hi]
  rw [replaceWords, replaceWords, words]

end Restoring

/-- What each placeholder of some formulas is replaced by. -/
def resolved (resolver : Text → Text) (spans : List Entry) : List (Text × Text) :=
  spans.map fun e => (e.word, resolver e.word)

theorem restore_resolved {resolver : Text → Text} {spans : List Entry}
    (enclosed : ∀ e ∈ spans, Enclosed (resolver e.word))
    (fresh : ∀ e ∈ spans, ∀ f ∈ spans, ¬f.word <:+: resolver e.word) (t : Text) :
    restore (resolved resolver spans) t =
      replaceWords ((spans.map Entry.index).map placeholder) resolver t := by
  induction spans generalizing t with
  | nil => exact (replaceWords_of_no_words t).symm
  | cons e spans ih =>
    simp only [List.forall_mem_cons] at enclosed fresh
    have later := ih enclosed.2 (fun e' he' => (fresh.2 e' he').2)
      (Text.replaceAll e.word (resolver e.word) t)
    have free : ∀ i ∈ spans.map Entry.index, ¬placeholder i <:+: resolver (placeholder e.index) := by
      intro i hi
      obtain ⟨f, hf, rfl⟩ := List.mem_map.1 hi
      exact fresh.1.2 f hf
    exact later.trans (replaceWords_replaceAll enclosed.1 free t)

/-- Putting formulas back one after the other replaces all placeholders at once, in whatever order the
formulas are given. -/
theorem restore_eq_replaceWords {resolver : Text → Text} {spans : List Entry}
    (enclosed : ∀ e ∈ spans, Enclosed (resolver e.word))
    (fresh : ∀ e ∈ spans, ∀ f ∈ spans, ¬f.word <:+: resolver e.word) (t : Text) :
    restore (resolved resolver spans) t = replaceWords (spans.map Entry.word) resolver t ∧
      ∀ spans' : List Entry, spans'.Perm spans →
        restore (resolved resolver spans') t = restore (resolved resolver spans) t := by
  have words : spans.map Entry.word = (spans.map Entry.index).map placeholder := by
    rw [List.map_map]
    rfl
  constructor
  · rw [words]
    exact restore_resolved enclosed fresh t
  · intro spans' perm
    have enclosed' : ∀ e ∈ spans', Enclosed (resolver e.word) := fun e he =>
      enclosed e (perm.mem_iff.1 he)
    have fresh' : ∀ e ∈ spans', ∀ f ∈ spans', ¬f.word <:+: resolver e.word := fun e he f hf =>
      fresh e (perm.mem_iff.1 he) f (perm.mem_iff.1 hf)
    rw [restore_resolved enclosed fresh, restore_resolved enclosed' fresh']
    exact replaceWords_congr (fun i => (perm.map Entry.index).mem_iff) t

/-! ## Working texts with their formulas put back -/

/-- The piece with a text in place of a formula. -/
def Piece.filled (f : Nat → Text) : Piece → Text
  | .span i => f i
  | p => p.text

theorem replaceWords_spell {ps : List Piece} (clean : Clean ps) {numbers : List Nat}
    (all : ∀ i ∈ spanNumbers ps, i ∈ numbers) (resolver : Text → Text) :
    replaceWords (numbers.map placeholder) resolver (spell ps) =
      ps.flatMap (Piece.filled fun i => resolver (placeholder i)) := by
  have piece : (fun p : Piece => p.segments.flatMap (Segment.replaced resolver)) =
      Piece.filled fun i => resolver (placeholder i) := by
    funext p
    cases p with
    | span i => exact List.append_nil _
    | char c => rfl
    | code i =>
      change ((Piece.code i).text.map .plain).flatMap (Segment.replaced resolver) = (Piece.code i).text
      rw [List.flatMap_map]
      exact List.flatMap_singleton' _
  rw [replaceWords, segments_wordIn_spell clean all, List.flatMap_assoc, piece]

/-- A word lies on one side of a text that begins and ends with marks, or in it. -/
theorem Enclosed.infix_append {t : Text} (enclosed : Enclosed t) {i : Nat} {a b : Text}
    (h : placeholder i <:+: a ++ (t ++ b)) :
    placeholder i <:+: a ∨ placeholder i <:+: t ∨ placeholder i <:+: b := by
  have free {c : Char} (mark : isMark c = true) := not_mem_placeholder_of_isMark mark i
  obtain ⟨more, first⟩ := List.head?_eq_some_iff.1 enclosed.first
  obtain ⟨init, last⟩ := List.getLast?_eq_some_iff.1 enclosed.last
  rw [first, List.cons_append] at h
  rcases infix_append_cons (free (by decide)) h with h | h
  · exact .inl h
  · have behind : more ++ b <:+: t ++ b := by
      rw [first]
      exact (List.suffix_cons '<' (more ++ b)).isInfix
    have h := h.trans behind
    rw [last, List.append_assoc, List.singleton_append] at h
    rcases infix_append_cons (free (by decide)) h with h | h
    · exact .inr (.inl (h.trans (last ▸ List.prefix_append init ['>']).isInfix))
    · exact .inr (.inr h)

/-- Where formulas have been put back that have no placeholder in them, none is left. -/
theorem not_infix_filled {f : Nat → Text} {ps : List Piece} (clean : Clean ps) (plain : ∀ i, .code i ∉ ps)
    (enclosed : ∀ i ∈ spanNumbers ps, Enclosed (f i))
    (fresh : ∀ i ∈ spanNumbers ps, ∀ j, ¬placeholder j <:+: f i) (j : Nat) :
    ¬placeholder j <:+: ps.flatMap (Piece.filled f) := by
  -- The characters before the next formula are kept apart, as what has been gone through.
  have through (u : Text) (clean : Clean (u.map .char ++ ps)) :
      ¬placeholder j <:+: u ++ ps.flatMap (Piece.filled f) := by
    induction ps generalizing u with
    | nil =>
      rw [List.append_nil, clean_map_char] at clean
      rw [List.flatMap_nil, List.append_nil]
      intro h
      exact clean ((placeholderStart_prefix_placeholder j).isInfix.trans h)
    | cons p ps ih =>
      have plain' : ∀ i, .code i ∉ ps := fun i hi => plain i (List.mem_cons_of_mem p hi)
      cases p with
      | code i => exact absurd List.mem_cons_self (plain i)
      | char c =>
        have ih := ih (clean.mono ⟨u.map .char ++ [.char c], [], by simp⟩) plain' (by simpa using enclosed)
          (by simpa using fresh) (u ++ [c]) (by simpa using clean)
        simpa [Piece.filled, Piece.text] using ih
      | span i =>
        rw [clean_append_cons (word_not_mem_start rfl), clean_map_char] at clean
        simp only [spanNumbers_span, List.forall_mem_cons] at enclosed fresh
        have later := ih clean.2 plain' enclosed.2 fresh.2 [] (by simpa using clean.2)
        intro h
        rw [List.flatMap_cons] at h
        rcases enclosed.1.infix_append h with h | h | h
        · exact clean.1 ((placeholderStart_prefix_placeholder j).isInfix.trans h)
        · exact fresh.1 j h
        · exact later h
  exact through [] (by simpa using clean)

/-- Two formulas, the number of the first being the beginning of the other's. -/
def startsAlike : List Entry := [⟨1, .inline, []⟩, ⟨11, .block, []⟩]

/-- Markup with parts of placeholders in it. -/
def markupWithParts (word : Text) : Text :=
  if word = placeholder 1 then "<i>MATHPASTE1</i>".toList else "<b>1PLACEHOLDER</b>".toList

theorem restore_eq_replaceWords_startsAlike :
    (∀ e ∈ startsAlike, Enclosed (markupWithParts e.word)) ∧
      (∀ e ∈ startsAlike, ∀ f ∈ startsAlike, ¬f.word <:+: markupWithParts e.word) ∧
      restore (resolved markupWithParts startsAlike)
          "MATHPASTE11PLACEHOLDER MATHPASTEMATHPASTE1PLACEHOLDERPLACEHOLDER".toList =
        replaceWords (startsAlike.map Entry.word) markupWithParts
          "MATHPASTE11PLACEHOLDER MATHPASTEMATHPASTE1PLACEHOLDERPLACEHOLDER".toList ∧
      restore (resolved markupWithParts startsAlike.reverse)
          "MATHPASTE11PLACEHOLDER MATHPASTEMATHPASTE1PLACEHOLDERPLACEHOLDER".toList =
        restore (resolved markupWithParts startsAlike)
          "MATHPASTE11PLACEHOLDER MATHPASTEMATHPASTE1PLACEHOLDERPLACEHOLDER".toList := by
  have enclosed : ∀ e ∈ startsAlike, Enclosed (markupWithParts e.word) := by
    simp only [startsAlike, List.forall_mem_cons]
    exact ⟨⟨by decide, by decide⟩, ⟨by decide, by decide⟩, by simp⟩
  have fresh : ∀ e ∈ startsAlike, ∀ f ∈ startsAlike, ¬f.word <:+: markupWithParts e.word := by
    simp only [startsAlike, List.forall_mem_cons, ← Text.contains_iff_infix]
    decide
  have result := restore_eq_replaceWords enclosed fresh
    "MATHPASTE11PLACEHOLDER MATHPASTEMATHPASTE1PLACEHOLDERPLACEHOLDER".toList
  exact ⟨enclosed, fresh, result.1, result.2 _ (List.reverse_perm startsAlike)⟩

end Span

end OfficeFormula
