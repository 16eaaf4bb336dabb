import OfficeFormula.Proofs.Span.Placeholder

/-!
# Scanning a working text

A recogniser scans characters and knows nothing of pieces. But every stretch that is looked for
begins and ends with a mark (`FindsBounded`), so the scan cuts a working text between pieces: `Cut`
says so, and `exists_cut` finds the blocks. What a replacement of each found stretch keeps true of
the pieces is then true of the whole replacement (`substitute_preserves`).
-/

namespace OfficeFormula.Span

/-- Text whose first and last characters are marks. -/
structure Bounded (t : Text) : Prop where
  first : ∃ c r, t = c :: r ∧ isMark c = true
  last : ∃ r c, t = r ++ [c] ∧ isMark c = true

theorem Bounded.ne_nil {t : Text} (bounded : Bounded t) : t ≠ [] := by
  obtain ⟨c, r, rfl, _⟩ := bounded.first
  simp

/-- All that the recogniser finds begins and ends with a mark. -/
def FindsBounded (find : Recogniser) : Prop :=
  ∀ previous t hit, find previous t = some hit →
    ∃ source rest, t = source ++ rest ∧ hit.length = source.length ∧ Bounded source

/-- A spelling that is cut after a mark is cut between pieces. -/
theorem exists_of_spell_eq_bounded {ps : List Piece} {source rest : Text} (bounded : Bounded source)
    (h : spell ps = source ++ rest) :
    ∃ ms rs, ps = ms ++ rs ∧ spell ms = source ∧ spell rs = rest := by
  obtain ⟨r, c, rfl, mark⟩ := bounded.last
  obtain ⟨us, vs, rfl, rfl, rfl⟩ := exists_of_spell_eq_append_mark mark (by simpa using h)
  exact ⟨us ++ [.char c], vs, by simp, by simp [Piece.text], rfl⟩

/-- A part of a scanned working text: a piece that stays, or pieces that have been found. -/
inductive Block where
  | keep (p : Piece)
  | found (ms : List Piece) (content : Text)

namespace Block

def pieces : Block → List Piece
  | keep p => [p]
  | found ms _ => ms

/-- The segments that the scan cuts the block into. -/
def segments : Block → List Segment
  | keep p => p.text.map .plain
  | found ms content => [.found (spell ms) content]

end Block

/-- A scan cuts pieces that `previous` stands before into blocks. -/
inductive Cut (find : Recogniser) : Option Char → List Piece → List Block → Prop where
  | nil (previous : Option Char) : Cut find previous [] []
  | keep {previous : Option Char} {p : Piece} {ps : List Piece} {bs : List Block}
      (more : Cut find (lastChar previous p.text) ps bs) :
      Cut find previous (p :: ps) (.keep p :: bs)
  | found {previous : Option Char} {ms ps : List Piece} {bs : List Block} {content : Text}
      (hit : find previous (spell ms ++ spell ps) = some ⟨(spell ms).length, content⟩)
      (more : Cut find (lastChar previous (spell ms)) ps bs) :
      Cut find previous (ms ++ ps) (.found ms content :: bs)

theorem Cut.flatMap_pieces {find : Recogniser} {previous : Option Char} {ps : List Piece}
    {bs : List Block} (cut : Cut find previous ps bs) : bs.flatMap Block.pieces = ps := by
  induction cut with
  | nil => rfl
  | keep _ ih => simp [Block.pieces, ih]
  | found _ _ ih => simp [Block.pieces, ih]

/-- Nothing that is found begins inside a placeholder. -/
theorem find_eq_none_of_suffix_word {find : Recogniser} (finds : FindsBounded find) {p : Piece}
    (word : p.isWord = true) {previous : Option Char} {u t : Text} (hu : u <:+ p.text) (ne : u ≠ []) :
    find previous (u ++ t) = none := by
  cases hit : find previous (u ++ t) with
  | none => rfl
  | some hit' =>
    obtain ⟨source, rest, h, _, bounded⟩ := finds previous _ _ hit
    obtain ⟨c, r, rfl, mark⟩ := bounded.first
    obtain ⟨d, ds, rfl⟩ := List.exists_cons_of_ne_nil ne
    simp only [List.cons_append, List.cons.injEq] at h
    have letter := isMark_eq_false_of_mem_word word d (hu.subset List.mem_cons_self)
    rw [h.1, mark] at letter
    simp at letter

/-- Every scan for stretches between marks cuts a working text into blocks. -/
theorem exists_cut {find : Recogniser} (finds : FindsBounded find) (previous : Option Char)
    (ps : List Piece) : ∃ bs, Cut find previous ps bs ∧
      segmentsAfter find previous (spell ps) = bs.flatMap Block.segments := by
  generalize hn : ps.length = n
  induction n using Nat.strongRecOn generalizing previous ps with
  | ind n ih =>
    cases ps with
    | nil => exact ⟨[], .nil previous, by rw [spell_nil, segmentsAfter]; rfl⟩
    | cons p ps =>
      -- A piece that stays is followed by the blocks of the rest.
      have stay (plain : segmentsAfter find previous (p.text ++ spell ps) =
          p.text.map .plain ++ segmentsAfter find (lastChar previous p.text) (spell ps)) :
          ∃ bs, Cut find previous (p :: ps) bs ∧
            segmentsAfter find previous (spell (p :: ps)) = bs.flatMap Block.segments := by
        obtain ⟨bs, cut, segments⟩ :=
          ih ps.length (by simp [← hn]) (lastChar previous p.text) ps rfl
        exact ⟨.keep p :: bs, .keep cut, by
          rw [spell_cons, plain, segments, List.flatMap_cons, Block.segments]⟩
      cases p with
      | code i =>
        exact stay (segmentsAfter_append fun _ _ hu ne => find_eq_none_of_suffix_word finds rfl hu ne)
      | span i =>
        exact stay (segmentsAfter_append fun _ _ hu ne => find_eq_none_of_suffix_word finds rfl hu ne)
      | char c =>
        cases hit : find previous (c :: spell ps) with
        | none => exact stay (segmentsAfter_of_none hit)
        | some h =>
          obtain ⟨source, rest, text, length, bounded⟩ := finds previous _ _ hit
          have spelled : spell (.char c :: ps) = source ++ rest := text
          obtain ⟨ms, rs, pieces, rfl, rfl⟩ := exists_of_spell_eq_bounded bounded spelled
          have ne : ms ≠ [] := by
            rintro rfl
            exact bounded.ne_nil rfl
          have shorter : rs.length < n := by
            have := List.length_pos_iff.2 ne
            have := congrArg List.length pieces
            simp only [List.length_cons, List.length_append] at this hn
            omega
          obtain ⟨bs, cut, segments⟩ := ih rs.length shorter (lastChar previous (spell ms)) rs rfl
          rw [text] at hit
          rw [pieces, spell_append]
          refine ⟨.found ms h.content :: bs, .found (by rw [hit, ← length]) cut, ?_⟩
          rw [segmentsAfter_of_some bounded.ne_nil hit length, segments]
          rfl

/-- The run of a replacement: what each replacement of a found stretch preserves holds at the
end. -/
theorem Cut.preserves {σ : Type} {find : Recogniser}
    {f : σ → (source content : Text) → σ × Text} {P : σ → List Piece → Prop}
    (step : ∀ previous s done ms todo content,
      find previous (spell ms ++ spell todo) = some ⟨(spell ms).length, content⟩ →
      P s (done ++ ms ++ todo) →
      ∃ new, (f s (spell ms) content).2 = spell new ∧
        P (f s (spell ms) content).1 (done ++ new ++ todo))
    {previous : Option Char} {ps : List Piece} {bs : List Block} (cut : Cut find previous ps bs) :
    ∀ s done, P s (done ++ ps) → ∃ out,
      (substitute f s (bs.flatMap Block.segments)).2 = spell out ∧
        P (substitute f s (bs.flatMap Block.segments)).1 (done ++ out) := by
  induction cut with
  | nil => intro s done start; exact ⟨[], rfl, start⟩
  | @keep _ p _ bs _ ih =>
    intro s done start
    obtain ⟨out, text, kept⟩ := ih s (done ++ [p]) (by simpa using start)
    refine ⟨p :: out, ?_, ?_⟩
    · rw [List.flatMap_cons, Block.segments, substitute_plain, text, spell_cons]
    · rw [List.flatMap_cons, Block.segments, substitute_plain]
      simpa using kept
  | @found previous ms ps bs content hit _ ih =>
    intro s done start
    obtain ⟨new, text, kept⟩ := step previous s done ms ps content hit (by simpa using start)
    obtain ⟨out, text', kept'⟩ := ih _ (done ++ new) kept
    refine ⟨new ++ out, ?_, ?_⟩
    · simp only [List.flatMap_cons, Block.segments, List.singleton_append, substitute, text, text',
        spell_append]
    · simp only [List.flatMap_cons, Block.segments, List.singleton_append, substitute]
      simpa using kept'

/-- What each replacement of a found stretch preserves, the replacement of all preserves. -/
theorem substitute_preserves {σ : Type} {find : Recogniser} (finds : FindsBounded find)
    {f : σ → (source content : Text) → σ × Text} {P : σ → List Piece → Prop}
    (step : ∀ previous s done ms todo content,
      find previous (spell ms ++ spell todo) = some ⟨(spell ms).length, content⟩ →
      P s (done ++ ms ++ todo) →
      ∃ new, (f s (spell ms) content).2 = spell new ∧
        P (f s (spell ms) content).1 (done ++ new ++ todo))
    {s : σ} {ps : List Piece} (start : P s ps) :
    ∃ out, (substitute f s (segments find (spell ps))).2 = spell out ∧
      P (substitute f s (segments find (spell ps))).1 out := by
  obtain ⟨bs, cut, segments⟩ := exists_cut finds none ps
  rw [Span.segments, segments]
  simpa using cut.preserves step s [] (by simpa using start)

end OfficeFormula.Span
