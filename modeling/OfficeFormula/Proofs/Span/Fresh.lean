import OfficeFormula.Proofs.Span.Simultaneous
import OfficeFormula.Proofs.Text.Apart

/-!
# Text around formulas

Placeholders are numbered without a look at the text, so a text may have the placeholder of one of its
formulas in it already, as a word like any other (`protectWith_takesWords`). Where it has none
(`FreshFor`), all of it that is outside formulas stays as it is, both when formulas are set aside and
when something is put back in their place (`protectWith_keepsRest`). Words that only look like
placeholders do no harm.

The steps that set formulas aside keep two things. The characters of the working text make up no word
that the text does not have (`TakenFrom`), so that a placeholder that is not in the text is a piece
wherever it is found. And the store belongs to the working text (`Follows`). Putting formulas back then
replaces one piece after the other (`restore_filled`), whatever the results are, unless a placeholder
may be made up of the end of a result and of what stands beside it (`Text.Apart`).
-/

namespace OfficeFormula.Span

/-- None of the placeholders that a store has given out is in the text. -/
structure FreshFor (s : Store) (t : Text) : Prop where
  spans : ∀ i < s.next, ¬placeholder i <:+: t
  codes : ∀ i < s.code.length, ¬codePlaceholder i <:+: t

instance (s : Store) (t : Text) : Decidable (FreshFor s t) :=
  decidable_of_iff ((∀ i < s.next, ¬Text.contains (placeholder i) t = true) ∧
      ∀ i < s.code.length, ¬Text.contains (codePlaceholder i) t = true) <| by
    simp only [Text.contains_iff_infix]
    exact ⟨fun h => ⟨h.1, h.2⟩, fun h => ⟨h.spans, h.codes⟩⟩

/-! ## Setting formulas aside -/

/-- The characters of the pieces make up no word that `t` does not have. -/
def TakenFrom (t : Text) (ps : List Piece) : Prop := ∀ w, ¬w <:+: t → Avoids w ps

/-- The working text is taken from `t`, and it belongs to the store as long as no more than `n` formulas
have been set aside. -/
structure Spares (t : Text) (n : Nat) (first : List Piece) (codes : List Text) (s : Store)
    (ps : List Piece) : Prop where
  taken : TakenFrom t ps
  follows : s.next ≤ n → ∃ σ, Follows first [] codes σ s ps

theorem keptByAnyAdd_spares {t : Text} {n : Nat} (fresh : ∀ i < n, ¬placeholder i <:+: t)
    (first : List Piece) (codes : List Text) : KeptByAnyAdd (Spares t n first codes) := by
  intro s done bs todo kind opening closing content spares delimits holds
  refine ⟨fun w absent => avoids_add (spares.taken w absent), fun bound => ?_⟩
  have earlier : s.next < n := bound
  obtain ⟨σ, follows⟩ := spares.follows (Nat.le_of_lt earlier)
  refine ⟨_, follows.add delimits holds fun e he => ?_⟩
  have avoids := spares.taken _ (fresh e.index (Nat.lt_trans (follows.below e he) earlier))
  exact avoids.mono ⟨done, todo, by simp⟩

section Code

variable {t : Text} {codes : List Text} {first ps : List Piece} (parted : Parted [] t codes first)
  (taken : TakenFrom t ps)
include parted taken

/-- Code is put back where it was, if its placeholders are not in the text. -/
theorem restoreCode_eq_readBack_of_fresh (fresh : ∀ i < codes.length, ¬codePlaceholder i <:+: t) :
    Store.restoreCode codes (spell ps) = readBack codes ps := by
  refine restoreCodeFrom_spell (fun code hc => (parted.bounded_infix hc).1) 0 ?_ ?_
  · intro i _ h code hc found
    exact fresh i (by omega) (found.trans (parted.bounded_infix hc).2)
  · intro i _ h
    exact taken _ (fresh i (by omega))

/-- The text still has no more words in it when code has been put back. -/
theorem avoids_restored_of_fresh {p : Piece} (word : p.isWord = true) (fresh : ¬p.text <:+: t) :
    Avoids p.text (ps.flatMap (Piece.restored 0 codes)) := by
  refine avoids_flatMap_restored (isMark_eq_false_of_mem_word word)
    (fun code hc => (parted.bounded_infix hc).1) (fun code hc found => ?_) 0 (taken _ fresh)
  exact fresh (found.trans (parted.bounded_infix hc).2)

end Code

/-- What `protectWith` leaves of a text without its placeholders: a working text that belongs to the
store, with its code put back. -/
theorem exists_spared (soft : SoftParentheses) {t : Text}
    (fresh : FreshFor (protectWith soft .empty t).1 t) :
    ∃ codes first ps σ, Parted [] t codes first ∧
      Follows first [] codes σ (protectWith soft .empty t).1 ps ∧ TakenFrom t ps ∧
      (protectWith soft .empty t).2 = readBack codes ps := by
  obtain ⟨codes, first, parted, code⟩ := exists_parted .empty t
  rw [protectWith_eq soft code] at fresh ⊢
  have follows := follows_first parted.spans codes (s := .empty) .nil .nil (by simp [Store.empty])
  have taken : TakenFrom t first := fun w absent found =>
    absent (parted.text ▸ infix_readBack found codes)
  obtain ⟨ps, text, spares⟩ := (keptByAnyAdd_spares fresh.spans first codes).extractAll soft _ _
    ⟨taken, fun _ => ⟨_, follows⟩⟩
  obtain ⟨σ, follows⟩ := spares.follows (Nat.le_refl _)
  have codeFresh := fresh.codes
  rw [follows.code] at codeFresh
  refine ⟨codes, first, ps, σ, parted, follows, spares.taken, ?_⟩
  rw [text, follows.code, restoreCode_eq_readBack_of_fresh parted spares.taken codeFresh]

/-! ## Putting formulas back -/

/-- No placeholder overlaps another. -/
theorem apart_word {p q : Piece} (hp : p.isWord = true) (hq : q.isWord = true) :
    Text.Apart q.text p.text := by
  obtain ⟨more, text, _⟩ := exists_word_eq_cons hp
  obtain ⟨more', text', absent'⟩ := exists_word_eq_cons hq
  constructor
  · intro y suffix proper
    -- The `M` that begins `q` is not in the rest of it.
    have inner : 'M' ∉ y := by
      rw [text', List.suffix_cons_iff] at suffix
      rw [text'] at proper
      exact fun mem => absent' ((suffix.resolve_left proper).mem mem)
    constructor
    · intro h
      exact inner (h.mem (by simp [text]))
    · intro h
      cases y with
      | nil => rfl
      | cons c y =>
        rw [text, List.cons_prefix_cons] at h
        exact absurd (by simp [h.1]) inner
  · intro x suffix nonempty h
    by_cases whole : x = p.text
    · subst whole
      have starts : p.text <+: q.text ++ [] := by simpa using h
      rw [eq_of_prefix_word hq hp starts]
    · cases x with
      | nil => exact absurd rfl nonempty
      | cons c x =>
        rw [text', List.cons_prefix_cons] at h
        have starts : 'M' :: x <+: c :: x ++ [] := by simp [h.1]
        exact absurd starts (not_prefix_of_suffix_word hp suffix whole nonempty)

/-- No placeholder overlaps a text that begins and ends with marks. -/
theorem Bounded.apart {t : Text} (bounded : Bounded t) {p : Piece} (word : p.isWord = true) :
    Text.Apart p.text t := by
  have plain := isMark_eq_false_of_mem_word word
  have free {c : Char} (mark : isMark c = true) : c ∉ p.text := fun mem => by simp [plain c mem] at mark
  constructor
  · obtain ⟨c, r, rfl, mark⟩ := bounded.first
    intro y suffix _
    constructor
    · exact fun h => free mark (suffix.mem (h.mem List.mem_cons_self))
    · intro h
      cases y with
      | nil => rfl
      | cons d y =>
        rw [List.cons_prefix_cons] at h
        exact absurd (suffix.mem (by simp [h.1])) (free mark)
  · obtain ⟨r, c, rfl, mark⟩ := bounded.last
    intro x suffix nonempty h
    have mem : c ∈ x := by
      rcases List.suffix_concat_iff.1 suffix with rfl | ⟨u, rfl, _⟩
      · exact absurd rfl nonempty
      · simp
    exact absurd (h.mem mem) (free mark)

/-- The rest of a word that has begun before some pieces goes on in their characters only. -/
theorem prefix_filled {w : Text} {f : Nat → Text} {ps : List Piece}
    (apart : ∀ p ∈ ps, p.isWord = true → Text.BeginsApart w (p.filled f)) {y : Text} (suffix : y <:+ w)
    (proper : y ≠ w) (h : y <+: ps.flatMap (Piece.filled f)) : y.map .char <+: ps := by
  induction ps generalizing y with
  | nil => simp_all
  | cons p ps ih =>
    rw [List.forall_mem_cons] at apart
    rw [List.flatMap_cons] at h
    cases word : p.isWord with
    | true =>
      obtain ⟨shorter, longer⟩ := apart.1 word y suffix proper
      rcases List.prefix_or_prefix_of_prefix h (List.prefix_append _ _) with h | h
      · rw [longer h]
        exact List.nil_prefix
      · exact absurd h shorter
    | false =>
      obtain ⟨c, rfl⟩ : ∃ c, p = .char c := by cases p <;> simp_all [Piece.isWord]
      cases y with
      | nil => exact List.nil_prefix
      | cons d y =>
        have h : d :: y <+: c :: ps.flatMap (Piece.filled f) := h
        rw [List.cons_prefix_cons] at h
        obtain ⟨suffix', proper'⟩ := Text.proper_of_cons suffix
        rw [List.map_cons, h.1, List.cons_prefix_cons]
        exact ⟨rfl, ih apart.2 suffix' proper' h.2⟩

section Filled

variable {ps : List Piece} {f : Nat → Text}

theorem flatMap_filled_eq_spell (same : ∀ i ∈ spanNumbers ps, f i = placeholder i) :
    ps.flatMap (Piece.filled f) = spell ps := by
  induction ps with
  | nil => rfl
  | cons p ps ih =>
    rw [List.flatMap_cons, spell_cons]
    cases p with
    | char c => rw [ih same]; rfl
    | code i => rw [ih same]; rfl
    | span i =>
      rw [spanNumbers_span, List.forall_mem_cons] at same
      rw [ih same.2]
      exact congrArg (· ++ spell ps) same.1

/-- Replacing one placeholder replaces it in what stands for the formulas. -/
theorem replaceAll_filled {j : Nat} (avoids : Avoids (placeholder j) ps)
    (apart : ∀ i, Text.Apart (placeholder j) (f i)) (new : Text) :
    Text.replaceAll (placeholder j) new (ps.flatMap (Piece.filled f)) =
      ps.flatMap (Piece.filled fun i => Text.replaceAll (placeholder j) new (f i)) := by
  have ne := placeholder_ne_nil j
  have words {p : Piece} (word : p.isWord = true) : Text.Apart (placeholder j) (p.filled f) := by
    cases p with
    | char c => simp [Piece.isWord] at word
    | span i => exact apart i
    | code i => exact apart_word (p := .code i) (q := .span j) rfl rfl
  induction ps with
  | nil => exact Text.replaceAll_nil ne new
  | cons p ps ih =>
    have ih := ih (avoids.mono (List.suffix_cons p ps).isInfix)
    rw [List.flatMap_cons, List.flatMap_cons]
    cases p with
    | span i => rw [(words (p := .span i) rfl).ends.replaceAll_append ne, ih]; rfl
    | code i =>
      have other : ∀ u, u <:+ codePlaceholder i → u ≠ [] →
          ¬placeholder j <+: u ++ ps.flatMap (Piece.filled f) :=
        fun _ => not_prefix_of_suffix_other (p := .code i) (q := .span j) rfl rfl (by simp)
      simp only [Piece.filled, Piece.text]
      rw [Text.replaceAll_append_of_not ne new other, ih]
    | char c =>
      -- A placeholder that begins here would go on in the characters behind it, and `ps` avoids it.
      have here : ¬placeholder j <+: c :: ps.flatMap (Piece.filled f) := by
        obtain ⟨more, text, _⟩ := exists_word_eq_cons (p := .span j) rfl
        have text : placeholder j = 'M' :: more := text
        rw [text, List.cons_prefix_cons]
        rintro ⟨rfl, rest⟩
        obtain ⟨suffix, proper⟩ := Text.proper_of_cons (w := placeholder j) (c := 'M') ⟨[], text.symm⟩
        have starts := prefix_filled (fun _ _ word => (words word).begins) suffix proper rest
        rw [Avoids, text] at avoids
        exact avoids (List.cons_prefix_cons.2 ⟨rfl, starts⟩).isInfix
      simp only [Piece.filled, Piece.text, List.singleton_append]
      rw [Text.replaceAll_cons ne new here, ih]

/-- Putting formulas back does so in what stands for them, and nowhere else. -/
theorem restore_filled {spans : List Entry} {resolver : Text → Text}
    (results : ∀ e ∈ spans, ∀ e' ∈ spans, Text.Apart e'.word (resolver e.word))
    (avoids : ∀ e ∈ spans, Avoids e.word ps) (apart : ∀ e ∈ spans, ∀ i, Text.Apart e.word (f i)) :
    restore (resolved resolver spans) (ps.flatMap (Piece.filled f)) =
      ps.flatMap (Piece.filled fun i => restore (resolved resolver spans) (f i)) := by
  induction spans generalizing f with
  | nil => rfl
  | cons e spans ih =>
    simp only [List.forall_mem_cons] at results avoids apart
    have first := replaceAll_filled avoids.1 apart.1 (resolver e.word)
    have later : ∀ e' ∈ spans, ∀ i,
        Text.Apart e'.word (Text.replaceAll e.word (resolver e.word) (f i)) := fun e' he' i =>
      (results.1.2 e' he').replaceAll (placeholder_ne_nil e.index) (apart.2 e' he' i)
    have rest := ih (fun a ha b hb => (results.2 a ha).2 b hb) avoids.2 later
    exact (congrArg (restore (resolved resolver spans)) first).trans rest

end Filled

/-! ## The parts of a text -/

/-- A part of a text whose formulas have been set aside: a character that stays, or a formula and the
text that it was made from. -/
inductive Part where
  | kept (c : Char)
  | formula (e : Entry) (source : Text)

namespace Part

def source : Part → Text
  | kept c => [c]
  | formula _ source => source

def entry? : Part → Option Entry
  | kept _ => none
  | formula e _ => some e

/-- The part with something else in place of a formula. -/
def shown (f : Entry → Text) : Part → Text
  | kept c => [c]
  | formula e _ => f e

end Part

/-- `parts` are those of the text `t`: its formulas are those of the store, and the carrier has their
placeholders in their places and all else as it is in `t`. -/
structure Divides (parts : List Part) (t : Text) (s : Store) (carrier : Text) : Prop where
  source : parts.flatMap Part.source = t
  carrier : parts.flatMap (Part.shown Entry.word) = carrier
  entries : (parts.filterMap Part.entry?).Perm s.spans
  formed : ∀ e source, .formula e source ∈ parts → ∃ opening inner closing,
    Delimits e.kind opening closing ∧ source = opening ++ inner ++ closing

/-- The entry with a number. -/
def entryAt (spans : List Entry) (i : Nat) : Entry :=
  (Store.find? spans (placeholder i)).getD ⟨i, .inline, []⟩

theorem word_entryAt (spans : List Entry) (i : Nat) : (entryAt spans i).word = placeholder i := by
  unfold entryAt
  cases found : Store.find? spans (placeholder i) with
  | none => rfl
  | some e => simpa using List.find?_some found

theorem entryAt_index {spans : List Entry} (sorted : spans.Pairwise (·.index < ·.index)) {e : Entry}
    (he : e ∈ spans) : entryAt spans e.index = e := by
  have found := find?_word sorted he
  rw [Entry.word] at found
  rw [entryAt, found, Option.getD_some]

/-- The parts that a piece of a working text stands for. -/
def Piece.parts (codes : List Text) (σ : Nat → List Piece) (spans : List Entry) : Piece → List Part
  | .span i => [.formula (entryAt spans i) (readBack codes (σ i))]
  | p => (readBack codes [p]).map .kept

section Parts

variable (codes : List Text) (σ : Nat → List Piece) (spans : List Entry) (ps : List Piece)

theorem flatMap_source_parts :
    (ps.flatMap (Piece.parts codes σ spans)).flatMap Part.source =
      readBack codes (ps.flatMap (Piece.source σ)) := by
  have kept (t : Text) : (t.map Part.kept).flatMap Part.source = t := by
    rw [List.flatMap_map]
    exact List.flatMap_singleton' t
  induction ps with
  | nil => rfl
  | cons p ps ih =>
    rw [List.flatMap_cons, List.flatMap_append, ih, List.flatMap_cons, readBack_append]
    congr 1
    cases p with
    | span i => exact List.append_nil _
    | char c => exact kept _
    | code i => exact kept _

/-- With something in place of each formula, the parts are the working text with its code put back. -/
theorem flatMap_shown_parts (f : Entry → Text) :
    (ps.flatMap (Piece.parts codes σ spans)).flatMap (Part.shown f) =
      (ps.flatMap (Piece.restored 0 codes)).flatMap (Piece.filled fun i => f (entryAt spans i)) := by
  have kept {p : Piece} (none : spanNumbers [p] = []) :
      ((readBack codes [p]).map Part.kept).flatMap (Part.shown f) =
        (p.restored 0 codes).flatMap (Piece.filled fun i => f (entryAt spans i)) := by
    rw [flatMap_filled_eq_spell (by simp [spanNumbers_restored, none]), List.flatMap_map, readBack,
      List.flatMap_singleton]
    exact List.flatMap_singleton' _
  induction ps with
  | nil => rfl
  | cons p ps ih =>
    rw [List.flatMap_cons, List.flatMap_append, ih, List.flatMap_cons, List.flatMap_append]
    congr 1
    cases p with
    | span i => rfl
    | char c => exact kept rfl
    | code i => exact kept rfl

theorem filterMap_entry_parts :
    (ps.flatMap (Piece.parts codes σ spans)).filterMap Part.entry? =
      (spanNumbers ps).map (entryAt spans) := by
  have kept (t : Text) : (t.map Part.kept).filterMap Part.entry? = [] := by
    rw [List.filterMap_map]
    exact List.filterMap_eq_nil_iff.2 fun _ _ => rfl
  induction ps with
  | nil => rfl
  | cons p ps ih =>
    rw [List.flatMap_cons, List.filterMap_append, ih]
    cases p with
    | span i => rfl
    | char c => rw [Piece.parts, kept, spanNumbers_char, List.nil_append]; simp
    | code i => rw [Piece.parts, kept, spanNumbers_code, List.nil_append]; simp

/-- A formula among the parts stands where the working text has its placeholder. -/
theorem exists_of_formula_mem_parts {e : Entry} {source : Text}
    (h : .formula e source ∈ ps.flatMap (Piece.parts codes σ spans)) :
    ∃ i ∈ spanNumbers ps, e = entryAt spans i ∧ source = readBack codes (σ i) := by
  obtain ⟨p, hp, mem⟩ := List.mem_flatMap.1 h
  cases p with
  | char c => simp [Piece.parts] at mem
  | code i => simp [Piece.parts] at mem
  | span i =>
    rw [Piece.parts, List.mem_singleton, Part.formula.injEq] at mem
    exact ⟨i, mem_spanNumbers.2 hp, mem⟩

end Parts

/-- A text that belongs to a store is divided as its working text tells. -/
theorem Follows.divides {t : Text} {codes : List Text} {first ps : List Piece} {σ : Nat → List Piece}
    {s : Store} (follows : Follows first [] codes σ s ps) (text : readBack codes first = t) :
    Divides (ps.flatMap (Piece.parts codes σ s.spans)) t s (readBack codes ps) := by
  refine ⟨?source, ?carrier, ?entries, ?formed⟩
  case source => rw [flatMap_source_parts, follows.source, text]
  case carrier =>
    rw [flatMap_shown_parts, flatMap_filled_eq_spell fun i _ => word_entryAt s.spans i, readBack]
  case entries =>
    have same : (s.spans.map Entry.index).map (entryAt s.spans) = s.spans := by
      rw [List.map_map]
      exact (List.map_congr_left fun e he => entryAt_index follows.sorted he).trans (List.map_id _)
    have perm := follows.numbers.map (entryAt s.spans)
    rw [same] at perm
    rw [filterMap_entry_parts]
    exact perm.symm
  case formed =>
    intro e source mem
    obtain ⟨i, here, rfl, rfl⟩ := exists_of_formula_mem_parts _ _ _ _ mem
    obtain ⟨e, he, rfl⟩ := List.mem_map.1 (follows.numbers.mem_iff.2 here)
    rw [entryAt_index follows.sorted he]
    obtain ⟨opening, inner, closing, delimits, shape⟩ := follows.formed e he here
    exact ⟨opening, readBack codes inner, closing, delimits, by simp [shape]⟩

/-! ## The text outside formulas -/

/-- Where no placeholder that is given out is in the text already, formulas are set aside and something
is put back in their place with all else left as it is. This is so for all results that no placeholder
may overlap, with those of other formulas in them or without. -/
theorem protectWith_keepsRest (soft : SoftParentheses) {t : Text}
    (fresh : FreshFor (protectWith soft .empty t).1 t) :
    ∃ parts, Divides parts t (protectWith soft .empty t).1 (protectWith soft .empty t).2 ∧
      ∀ resolver : Text → Text,
        (∀ e ∈ (protectWith soft .empty t).1.spans, ∀ e' ∈ (protectWith soft .empty t).1.spans,
          Text.Apart e'.word (resolver e.word)) →
        restore (resolved resolver (protectWith soft .empty t).1.spans) (protectWith soft .empty t).2 =
          parts.flatMap (Part.shown fun e =>
            restore (resolved resolver (protectWith soft .empty t).1.spans) e.word) := by
  obtain ⟨codes, first, ps, σ, parted, follows, taken, carrier⟩ := exists_spared soft fresh
  rw [carrier]
  refine ⟨_, follows.divides parted.text, fun resolver results => ?_⟩
  have avoids (e : Entry) (he : e ∈ (protectWith soft .empty t).1.spans) :
      Avoids e.word (ps.flatMap (Piece.restored 0 codes)) :=
    avoids_restored_of_fresh parted taken (p := .span e.index) rfl (fresh.spans _ (follows.below e he))
  have apart (e : Entry) (_ : e ∈ (protectWith soft .empty t).1.spans) (i : Nat) :
      Text.Apart e.word (placeholder i) :=
    apart_word (p := .span i) (q := .span e.index) rfl rfl
  rw [flatMap_shown_parts, readBack, ← flatMap_filled_eq_spell (f := placeholder) fun _ _ => rfl,
    restore_filled results avoids apart]
  simp only [word_entryAt]

/-- A text with words in it that look like placeholders, or like the rest of one behind a formula. -/
def amongWords : Text :=
  "MATHPASTE7PLACEHOLDER \\(x\\)1PLACEHOLDER `$a$` MATHPASTECODE3PLACEHOLDER $y$".toList

/-- Markup for the first formula that has the second one in it. -/
def nestedMarkup (word : Text) : Text :=
  if word = placeholder 0 then "<b>MATHPASTE1PLACEHOLDER</b>".toList else "<i>y</i>".toList

theorem bounded_nestedMarkup (word : Text) : Bounded (nestedMarkup word) := by
  unfold nestedMarkup
  split
  · exact ⟨⟨'<', _, rfl, by decide⟩, ⟨"<b>MATHPASTE1PLACEHOLDER</b".toList, '>', rfl, by decide⟩⟩
  · exact ⟨⟨'<', _, rfl, by decide⟩, ⟨"<i>y</i".toList, '>', rfl, by decide⟩⟩

theorem protectWith_keepsRest_amongWords :
    FreshFor (protectWith ⟨true, looksLikeMath⟩ .empty amongWords).1 amongWords ∧
      (∀ e e' : Entry, Text.Apart e'.word (nestedMarkup e.word)) ∧
      (∃ parts, Divides parts amongWords (protectWith ⟨true, looksLikeMath⟩ .empty amongWords).1
          (protectWith ⟨true, looksLikeMath⟩ .empty amongWords).2 ∧
        restore (resolved nestedMarkup (protectWith ⟨true, looksLikeMath⟩ .empty amongWords).1.spans)
            (protectWith ⟨true, looksLikeMath⟩ .empty amongWords).2 =
          parts.flatMap (Part.shown fun e =>
            restore (resolved nestedMarkup (protectWith ⟨true, looksLikeMath⟩ .empty amongWords).1.spans)
              e.word)) ∧
      restore (resolved nestedMarkup (protectWith ⟨true, looksLikeMath⟩ .empty amongWords).1.spans)
          (protectWith ⟨true, looksLikeMath⟩ .empty amongWords).2 =
        ("MATHPASTE7PLACEHOLDER <b><i>y</i></b>1PLACEHOLDER `$a$` MATHPASTECODE3PLACEHOLDER " ++
          "<i>y</i>").toList := by
  have fresh : FreshFor (protectWith ⟨true, looksLikeMath⟩ .empty amongWords).1 amongWords := by
    decide +kernel
  have apart (e e' : Entry) : Text.Apart e'.word (nestedMarkup e.word) :=
    (bounded_nestedMarkup e.word).apart (p := .span e'.index) rfl
  obtain ⟨parts, divides, restored⟩ := protectWith_keepsRest ⟨true, looksLikeMath⟩ fresh
  exact ⟨fresh, apart, ⟨parts, divides, restored nestedMarkup fun e _ e' _ => apart e e'⟩,
    by decide +kernel⟩

/-- Words that are placeholders of a formula or of code in the same text are replaced with them. So is
one that the end of a result makes up with the text behind it. -/
theorem protectWith_takesWords :
    (¬FreshFor (protectWith ⟨true, looksLikeMath⟩ .empty "MATHPASTE0PLACEHOLDER \\(x\\)".toList).1
        "MATHPASTE0PLACEHOLDER \\(x\\)".toList ∧
      restore
          (resolved (fun _ => "<i>x</i>".toList)
            (protectWith ⟨true, looksLikeMath⟩ .empty "MATHPASTE0PLACEHOLDER \\(x\\)".toList).1.spans)
          (protectWith ⟨true, looksLikeMath⟩ .empty "MATHPASTE0PLACEHOLDER \\(x\\)".toList).2 =
        "<i>x</i> <i>x</i>".toList) ∧
    (¬FreshFor (protectWith ⟨true, looksLikeMath⟩ .empty "`MATHPASTECODE1PLACEHOLDER` `x`".toList).1
        "`MATHPASTECODE1PLACEHOLDER` `x`".toList ∧
      (protectWith ⟨true, looksLikeMath⟩ .empty "`MATHPASTECODE1PLACEHOLDER` `x`".toList).2 =
        "``x`` `x`".toList) ∧
    FreshFor (protectWith ⟨true, looksLikeMath⟩ .empty "\\(x\\)1PLACEHOLDER \\(y\\)".toList).1
        "\\(x\\)1PLACEHOLDER \\(y\\)".toList ∧
      restore
          (resolved (fun word => if word = placeholder 0 then "MATHPASTE".toList else "y".toList)
            (protectWith ⟨true, looksLikeMath⟩ .empty "\\(x\\)1PLACEHOLDER \\(y\\)".toList).1.spans)
          (protectWith ⟨true, looksLikeMath⟩ .empty "\\(x\\)1PLACEHOLDER \\(y\\)".toList).2 =
        "y y".toList := by
  decide +kernel

end OfficeFormula.Span
