import OfficeFormula.Proofs.Span.Code

/-!
# Code set aside

Before formulas are looked for, blocks of code are set aside, and then spans of code. The placeholder
of a block stands on a line of its own and a span stays on one line, so no span of code has the
placeholder of a block in it (`foundPlain_codeSpan`). What is set aside is therefore text as it was
written, and reading it back gives the whole text again (`exists_code_setAside`).
-/

namespace OfficeFormula.Span

/-! ## Reading code back -/

/-- The text that pieces stand for, formulas apart. -/
def readBack (codes : List Text) (ps : List Piece) : Text :=
  spell (ps.flatMap (Piece.restored 0 codes))

@[simp] theorem readBack_nil (codes : List Text) : readBack codes [] = [] := rfl

@[simp] theorem readBack_append (codes : List Text) (ps qs : List Piece) :
    readBack codes (ps ++ qs) = readBack codes ps ++ readBack codes qs := by
  simp [readBack]

theorem readBack_cons (codes : List Text) (p : Piece) (ps : List Piece) :
    readBack codes (p :: ps) = readBack codes [p] ++ readBack codes ps :=
  readBack_append codes [p] ps

@[simp] theorem readBack_map_char (codes : List Text) (t : Text) :
    readBack codes (t.map .char) = t := by
  simp [readBack, List.flatMap_map, Piece.restored, ← List.map_eq_flatMap]

theorem readBack_code {codes : List Text} {i : Nat} {t : Text} (h : codes[i]? = some t) :
    readBack codes [.code i] = t := by
  simp [readBack, Piece.restored, h]

/-- What the characters of pieces make up is in the text that the pieces stand for. -/
theorem infix_readBack {w : Text} {ps : List Piece} (h : w.map .char <:+: ps) (codes : List Text) :
    w <:+: readBack codes ps := by
  obtain ⟨us, vs, rfl⟩ := h
  exact ⟨readBack codes us, readBack codes vs, by simp⟩

theorem restoreCode_eq_readBack {codes : List Text} (isCode : ∀ code ∈ codes, IsCode code)
    {ps : List Piece} (clean : Clean ps) : Store.restoreCode codes (spell ps) = readBack codes ps :=
  restoreCode_spell isCode clean

/-- All code among the pieces has a number below `n`. -/
def CodeBelow (n : Nat) (ps : List Piece) : Prop := ∀ i, .code i ∈ ps → i < n

/-- More code does not change what the numbers already given stand for. -/
theorem readBack_mono {codes more : List Text} (h : codes <+: more) {ps : List Piece}
    (below : CodeBelow codes.length ps) : readBack more ps = readBack codes ps := by
  induction ps with
  | nil => rfl
  | cons p ps ih =>
    rw [readBack_cons, readBack_cons codes, ih fun i hi => below i (List.mem_cons_of_mem _ hi)]
    congr 1
    cases p with
    | char c => rfl
    | span i => rfl
    | code i =>
      have bound := below i List.mem_cons_self
      obtain ⟨rest, rfl⟩ := h
      have here : codes[i]? = some codes[i] := List.getElem?_eq_getElem bound
      rw [readBack_code here, readBack_code (by rw [List.getElem?_append_left bound, here])]

/-! ## Setting code aside -/

/-- The pieces after the found blocks have been set aside as code with numbers from `n` on. -/
def stash (n : Nat) : List Block → List Piece
  | [] => []
  | .keep p :: bs => p :: stash n bs
  | .found _ _ :: bs => .code n :: stash (n + 1) bs

/-- The code that is set aside. -/
def stashed : List Block → List Text
  | [] => []
  | .keep _ :: bs => stashed bs
  | .found ms _ :: bs => spell ms :: stashed bs

theorem stashed_append (as bs : List Block) : stashed (as ++ bs) = stashed as ++ stashed bs := by
  induction as with
  | nil => rfl
  | cons a as ih => cases a <;> simp [stashed, ih]

theorem stash_append (n : Nat) (as bs : List Block) :
    stash n (as ++ bs) = stash n as ++ stash (n + (stashed as).length) bs := by
  induction as generalizing n with
  | nil => rfl
  | cons a as ih => cases a <;> simp [stash, stashed, ih, Nat.add_assoc, Nat.add_comm 1]

theorem substitute_addCode (s : Store) (bs : List Block) :
    substitute (fun s source _ => s.addCode source) s (bs.flatMap Block.segments) =
      ({ s with code := s.code ++ stashed bs }, spell (stash s.code.length bs)) := by
  induction bs generalizing s with
  | nil => simp [substitute, stashed, stash]
  | cons b bs ih =>
    cases b with
    | keep p =>
      rw [List.flatMap_cons, Block.segments, substitute_plain, ih]
      rfl
    | found ms content =>
      rw [List.flatMap_cons, Block.segments, List.singleton_append, substitute, Store.addCode]
      simp only [ih, List.append_assoc, List.singleton_append, List.length_append, List.length_cons,
        List.length_nil, stash, stashed]
      rfl

/-- All that has been found is text as it was written. -/
def FoundPlain (bs : List Block) : Prop := ∀ ms content, .found ms content ∈ bs → ∃ u : Text, ms = u.map .char

theorem FoundPlain.tail {b : Block} {bs : List Block} (plain : FoundPlain (b :: bs)) : FoundPlain bs :=
  fun ms content h => plain ms content (List.mem_cons_of_mem _ h)

/-- Reading back what has been set aside gives what was there before. -/
theorem readBack_stash {before codes : List Text} {bs : List Block} (plain : FoundPlain bs)
    (h : before ++ stashed bs <+: codes) :
    readBack codes (stash before.length bs) = readBack codes (bs.flatMap Block.pieces) := by
  induction bs generalizing before with
  | nil => rfl
  | cons b bs ih =>
    cases b with
    | keep p =>
      rw [stash, List.flatMap_cons, Block.pieces, readBack_cons, readBack_append, ih plain.tail h]
    | found ms content =>
      obtain ⟨u, rfl⟩ := plain ms content List.mem_cons_self
      simp only [stashed, spell_map_char] at h
      have next : before ++ [u] ++ stashed bs <+: codes := by simpa using h
      have rest := ih plain.tail next
      have number : codes[before.length]? = some u := by
        obtain ⟨more, rfl⟩ := h
        simp
      rw [List.length_append, List.length_singleton] at rest
      rw [stash, List.flatMap_cons, Block.pieces, readBack_cons, readBack_append, rest,
        readBack_code number, readBack_map_char]

theorem codeBelow_stash {n : Nat} {bs : List Block} (below : CodeBelow n (bs.flatMap Block.pieces)) :
    CodeBelow (n + (stashed bs).length) (stash n bs) := by
  intro i hi
  induction bs generalizing n with
  | nil => simp [stash] at hi
  | cons b bs ih =>
    have rest : CodeBelow n (bs.flatMap Block.pieces) := fun i hi => below i (by simp [hi])
    cases b with
    | keep p =>
      rcases List.mem_cons.1 hi with rfl | hi
      · have := below i (by simp [Block.pieces])
        omega
      · exact ih rest hi
    | found ms content =>
      simp only [stashed, List.length_cons]
      rcases List.mem_cons.1 hi with he | hi
      · rw [Piece.code.injEq] at he
        omega
      · have := ih (n := n + 1) (fun i hi => Nat.lt_succ_of_lt (rest i hi)) hi
        omega

theorem spanNumbers_stash {n : Nat} {bs : List Block}
    (h : spanNumbers (bs.flatMap Block.pieces) = []) : spanNumbers (stash n bs) = [] := by
  induction bs generalizing n with
  | nil => rfl
  | cons b bs ih =>
    rw [List.flatMap_cons, spanNumbers_append, List.append_eq_nil_iff] at h
    cases b with
    | keep p =>
      have first : spanNumbers [p] = [] := h.1
      rw [stash, ← List.singleton_append, spanNumbers_append, first, ih h.2]
      rfl
    | found ms content => rw [stash, spanNumbers_code, ih h.2]

/-! ## Blocks and spans of code do not overlap -/

theorem lastChar_append (previous : Option Char) (a b : Text) :
    lastChar previous (a ++ b) = lastChar (lastChar previous a) b := by
  induction a generalizing previous with
  | nil => rfl
  | cons c cs ih => exact ih (some c)

theorem lastChar_mem {c : Char} {t : Text} (previous : Option Char) (ne : t ≠ [])
    (h : lastChar previous t = some c) : c ∈ t := by
  obtain ⟨d, ds, rfl⟩ := List.exists_cons_of_ne_nil ne
  rw [← getLast?_cons_eq_lastChar] at h
  exact List.mem_of_getLast? h

/-- The placeholder of a block of code stands at the beginning of a line. The character before it may
be that of another line end than before the block itself, as blocks before it have gone. -/
theorem atLineStart_of_stash {previous previous' : Option Char} {t : Text} {bs : List Block}
    (cut : Cut fencedCode previous (t.map .char) bs)
    (line : atLineStart previous = true → atLineStart previous' = true) {n i : Nat}
    {us vs : List Piece} (h : stash n bs = us ++ .code i :: vs) :
    atLineStart (lastChar previous' (spell us)) = true := by
  generalize hp : t.map Piece.char = ps at cut
  induction cut generalizing previous' t n us with
  | nil => simp [stash] at h
  | @keep previous p ps bs more ih =>
    cases t with
    | nil => simp at hp
    | cons c cs =>
      rw [List.map_cons, List.cons.injEq] at hp
      obtain ⟨rfl, rest⟩ := hp
      cases us with
      | nil => simp [stash] at h
      | cons u us =>
        simp only [stash, List.cons_append, List.cons.injEq] at h
        obtain ⟨rfl, h⟩ := h
        exact ih id h rest
  | @found previous ms ps bs content hit more ih =>
    obtain ⟨start, source, rest, text, length, bounded, newline⟩ := exists_of_fencedCode hit
    obtain rfl : spell ms = source := (List.append_inj text length).1
    obtain ⟨v, w, rfl, hv, hw⟩ := List.map_eq_append_iff.1 hp
    cases us with
    | nil => exact line start
    | cons u us =>
      simp only [stash, List.cons_append, List.cons.injEq] at h
      obtain ⟨rfl, h⟩ := h
      rw [spell_cons, lastChar_append]
      refine ih (fun here => ?_) h hw
      -- A block does not end with a newline, so no other begins right after it.
      obtain ⟨r, c, last, mark⟩ := bounded.last
      rw [last, lastChar_append] at here
      simp only [lastChar, atLineStart, reduceCtorEq, decide_false, Bool.false_or, Option.some.injEq,
        decide_eq_true_eq] at here
      exact absurd (here ▸ last) (newline r)

theorem foundPlain_of_map_char {find : Recogniser} {previous : Option Char} {t : Text}
    {bs : List Block} (cut : Cut find previous (t.map .char) bs) : FoundPlain bs := by
  intro ms content h
  have part : ms <:+: t.map Piece.char := by
    rw [← cut.flatMap_pieces]
    obtain ⟨as, bs, rfl⟩ := List.append_of_mem h
    exact ⟨as.flatMap Block.pieces, bs.flatMap Block.pieces, by simp [Block.pieces]⟩
  obtain ⟨u, _, he⟩ := List.infix_map_iff.1 part
  exact ⟨u, he⟩

theorem Cut.exists_hit {find : Recogniser} {previous : Option Char} {ps : List Piece}
    {bs : List Block} (cut : Cut find previous ps bs) {ms : List Piece} {content : Text}
    (h : .found ms content ∈ bs) :
    ∃ us vs previous', ps = us ++ ms ++ vs ∧
      find previous' (spell ms ++ spell vs) = some ⟨(spell ms).length, content⟩ := by
  induction cut with
  | nil => simp at h
  | @keep _ p _ _ _ ih =>
    rw [List.mem_cons] at h
    rcases h with h | h
    · simp at h
    · obtain ⟨us, vs, previous', rfl, hit⟩ := ih h
      exact ⟨p :: us, vs, previous', by simp, hit⟩
  | @found previous ms' ps _ _ hit _ ih =>
    rw [List.mem_cons] at h
    rcases h with h | h
    · rw [Block.found.injEq] at h
      obtain ⟨rfl, rfl⟩ := h
      exact ⟨[], ps, previous, by simp, hit⟩
    · obtain ⟨us, vs, previous', rfl, hit'⟩ := ih h
      exact ⟨ms' ++ us, vs, previous', by simp, hit'⟩

theorem exists_map_char_of_forall {ps : List Piece} (code : ∀ i, .code i ∉ ps)
    (span : spanNumbers ps = []) : ∃ u : Text, ps = u.map .char := by
  induction ps with
  | nil => exact ⟨[], rfl⟩
  | cons p ps ih =>
    cases p with
    | code i => exact absurd List.mem_cons_self (code i)
    | span i => simp at span
    | char c =>
      obtain ⟨u, rfl⟩ := ih (fun i hi => code i (List.mem_cons_of_mem _ hi)) (by simpa using span)
      exact ⟨c :: u, rfl⟩

/-- A span of code has no placeholder in it. -/
theorem foundPlain_codeSpan {ps : List Piece} {bs : List Block} (cut : Cut codeSpan none ps bs)
    (lines : ∀ us i vs, ps = us ++ .code i :: vs → atLineStart (lastChar none (spell us)) = true)
    (span : spanNumbers ps = []) : FoundPlain bs := by
  intro ms content h
  obtain ⟨us, vs, previous, rfl, hit⟩ := cut.exists_hit h
  obtain ⟨middle, rest, text, length, line⟩ := exists_of_codeSpan hit
  have source : spell ms = '`' :: middle ++ ['`'] := (List.append_inj text (by simpa using length)).1
  simp only [spanNumbers_append, List.append_eq_nil_iff] at span
  apply exists_map_char_of_forall _ span.1.2
  intro i hi
  obtain ⟨xs, ys, rfl⟩ := List.append_of_mem hi
  have start := lines (us ++ xs) i (ys ++ vs) (by simp)
  cases xs with
  | nil =>
    -- A span begins with a backtick and a placeholder does not.
    have := congrArg List.head? source
    simp [Piece.text, codePlaceholder, placeholderStart_eq] at this
  | cons x xs =>
    -- The newline before the placeholder would be in the span.
    have ne : spell (x :: xs) ≠ [] := by simp [Piece.text_ne_nil x]
    rw [spell_append, lastChar_append] at start
    obtain ⟨c, cs, hc⟩ := List.exists_cons_of_ne_nil ne
    have newline : '\n' ∈ spell (x :: xs) := by
      apply lastChar_mem (lastChar none (spell us)) ne
      simp only [atLineStart, Bool.or_eq_true, decide_eq_true_eq] at start
      rcases start with start | start
      · rw [hc, ← getLast?_cons_eq_lastChar] at start
        simp at start
      · exact start
    have : '\n' ∈ '`' :: middle ++ ['`'] := by
      rw [← source, spell_append]
      exact List.mem_append_left _ newline
    simp [line] at this

/-! ## Where code stands -/

/-- The scan of a text finds `source` behind `before`. -/
def FoundAt (find : Recogniser) (t before source : Text) : Prop :=
  ∃ xs content ys, segments find t = xs ++ .found source content :: ys ∧
    before = xs.flatMap Segment.source

/-- `code` is set aside from a text by one of the two scans, and `before` stands before it there. The
second scan sees the placeholders of the first, which stand for the code that it found. -/
inductive CodeRegion (s : Store) (t : Text) : (before code : Text) → Prop where
  | block {before code : Text} (found : FoundAt fencedCode t before code) : CodeRegion s t before code
  | span {before code : Text} (found : FoundAt codeSpan (s.extractCode fencedCode t).2 before code) :
      CodeRegion s t (Store.restoreCode (s.extractCode fencedCode t).1.code before)
        (Store.restoreCode (s.extractCode fencedCode t).1.code code)

theorem flatMap_source_segments_block (bs : List Block) :
    (bs.flatMap Block.segments).flatMap Segment.source = spell (bs.flatMap Block.pieces) := by
  induction bs with
  | nil => rfl
  | cons b bs ih =>
    cases b <;> simp [Block.segments, Block.pieces, ih, Segment.source, List.flatMap_map]

/-- A found segment comes from a found block. -/
theorem exists_found_of_segments {bs : List Block} {xs ys : List Segment} {source content : Text}
    (h : bs.flatMap Block.segments = xs ++ .found source content :: ys) :
    ∃ as ms cs, bs = as ++ .found ms content :: cs ∧ xs = as.flatMap Block.segments ∧
      source = spell ms := by
  obtain ⟨as, b, cs, rfl, here, rfl, _⟩ := exists_of_flatMap_eq_append_cons
    (fun b _ mem => by cases b <;> simp_all [Block.segments]) h
  cases b with
  | keep p =>
    have mem : Segment.found source content ∈ (Block.keep p).segments := by simp [here]
    simp [Block.segments] at mem
  | found ms content' =>
    simp only [Block.segments, List.cons.injEq, Segment.found.injEq, and_true] at here
    obtain ⟨rfl, rfl⟩ := here
    exact ⟨as, ms, cs, rfl, rfl, rfl⟩

/-- Code that is there already stays where it is. -/
theorem exists_keep_of_code {bs : List Block} (plain : FoundPlain bs) {us vs : List Piece} {i : Nat}
    (h : bs.flatMap Block.pieces = us ++ .code i :: vs) :
    ∃ as cs, bs = as ++ .keep (.code i) :: cs ∧ as.flatMap Block.pieces = us := by
  have kept {b : Block} (hb : b ∈ bs) (mem : .code i ∈ b.pieces) : b = .keep (.code i) := by
    cases b with
    | keep p => simp_all [Block.pieces]
    | found ms content =>
      obtain ⟨u, rfl⟩ := plain ms content hb
      simp [Block.pieces] at mem
  obtain ⟨as, b, cs, rfl, here, rfl, _⟩ := exists_of_flatMap_eq_append_cons
    (fun b hb mem => by rw [kept hb mem]; rfl) h
  rw [kept (List.mem_append_right _ List.mem_cons_self) (by simp [here])]
  exact ⟨as, cs, rfl, rfl⟩

/-- A found block becomes one piece, which stands for what was found. -/
theorem stash_found {before codes : List Text} {as cs : List Block} {ms : List Piece} {content : Text}
    (plain : FoundPlain (as ++ .found ms content :: cs))
    (h : before ++ stashed (as ++ .found ms content :: cs) <+: codes) :
    ∃ i vs, stash before.length (as ++ .found ms content :: cs) =
        stash before.length as ++ .code i :: vs ∧
      readBack codes (stash before.length as) = readBack codes (as.flatMap Block.pieces) ∧
      readBack codes [.code i] = spell ms := by
  rw [stashed_append, stashed] at h
  refine ⟨_, _, by rw [stash_append, stash], readBack_stash ?_ ?_, readBack_code ?_⟩
  · exact fun ms content h => plain ms content (List.mem_append_left _ h)
  · exact (List.prefix_append (before ++ stashed as) _).trans (by simpa using h)
  · obtain ⟨more, rfl⟩ := h
    simp

/-- A piece that stays keeps its place. -/
theorem stash_keep {before codes : List Text} {as cs : List Block} {p : Piece}
    (plain : FoundPlain (as ++ .keep p :: cs)) (h : before ++ stashed (as ++ .keep p :: cs) <+: codes) :
    ∃ vs, stash before.length (as ++ .keep p :: cs) = stash before.length as ++ p :: vs ∧
      readBack codes (stash before.length as) = readBack codes (as.flatMap Block.pieces) := by
  rw [stashed_append] at h
  refine ⟨_, by rw [stash_append, stash], readBack_stash ?_ ?_⟩
  · exact fun ms content h => plain ms content (List.mem_append_left _ h)
  · exact (List.prefix_append (before ++ stashed as) _).trans (by simpa using h)

/-! ## The scans for code -/

/-- A scan for code cuts pieces into blocks. What it finds is text as it was written, between marks. -/
structure CodeScan (find : Recogniser) (ps : List Piece) (bs : List Block) : Prop where
  segments : Span.segments find (spell ps) = bs.flatMap Block.segments
  pieces : bs.flatMap Block.pieces = ps
  plain : FoundPlain bs
  bounded : ∀ code ∈ stashed bs, Bounded code

theorem exists_found_of_mem_stashed {bs : List Block} {code : Text} (h : code ∈ stashed bs) :
    ∃ ms content, .found ms content ∈ bs ∧ code = spell ms := by
  induction bs with
  | nil => simp [stashed] at h
  | cons b bs ih =>
    cases b with
    | keep p =>
      obtain ⟨ms, content, mem, rfl⟩ := ih h
      exact ⟨ms, content, List.mem_cons_of_mem _ mem, rfl⟩
    | found ms content =>
      rcases List.mem_cons.1 h with rfl | h
      · exact ⟨ms, content, List.mem_cons_self, rfl⟩
      · obtain ⟨ms', content', mem, rfl⟩ := ih h
        exact ⟨ms', content', List.mem_cons_of_mem _ mem, rfl⟩

theorem Cut.codeScan {find : Recogniser} (finds : FindsBounded find) {ps : List Piece} {bs : List Block}
    (cut : Cut find none ps bs) (segments : segmentsAfter find none (spell ps) = bs.flatMap Block.segments)
    (plain : FoundPlain bs) : CodeScan find ps bs := by
  refine ⟨segments, cut.flatMap_pieces, plain, ?_⟩
  intro code h
  obtain ⟨ms, content, mem, rfl⟩ := exists_found_of_mem_stashed h
  obtain ⟨us, vs, previous, _, hit⟩ := cut.exists_hit mem
  obtain ⟨source, rest, text, length, bounded⟩ := finds _ _ _ hit
  obtain rfl : spell ms = source := (List.append_inj text length).1
  exact bounded

/-- The first scan: the placeholder of each block of code stands at the beginning of a line. -/
theorem exists_scan_blocks (t : Text) :
    ∃ bs, CodeScan fencedCode (t.map .char) bs ∧ ∀ n us i vs, stash n bs = us ++ .code i :: vs →
      atLineStart (lastChar none (spell us)) = true := by
  obtain ⟨bs, cut, segments⟩ := exists_cut findsBounded_fencedCode none (t.map .char)
  exact ⟨bs, cut.codeScan findsBounded_fencedCode segments (foundPlain_of_map_char cut),
    fun n us i vs h => atLineStart_of_stash cut id h⟩

/-- The second scan, of a text in which blocks of code have been set aside. -/
theorem exists_scan_spans {ps : List Piece} (span : spanNumbers ps = [])
    (lines : ∀ us i vs, ps = us ++ .code i :: vs → atLineStart (lastChar none (spell us)) = true) :
    ∃ bs, CodeScan codeSpan ps bs := by
  obtain ⟨bs, cut, segments⟩ := exists_cut findsBounded_codeSpan none ps
  exact ⟨bs, cut.codeScan findsBounded_codeSpan segments (foundPlain_codeSpan cut lines span)⟩

/-- A text whose code has been set aside, beside the code that was there already: `ps` are its pieces and
`codes` is all code. -/
structure Parted (already : List Text) (t : Text) (codes : List Text) (ps : List Piece) : Prop where
  spans : spanNumbers ps = []
  below : CodeBelow codes.length ps
  code : ∀ code ∈ codes, code ∈ already ∨ Bounded code ∧ code <:+: t
  text : readBack codes ps = t

theorem Parted.bounded_infix {t : Text} {codes : List Text} {ps : List Piece} (parted : Parted [] t codes ps)
    {code : Text} (h : code ∈ codes) : Bounded code ∧ code <:+: t :=
  (parted.code code h).resolve_left (by simp)

theorem parted_map_char (already : List Text) (t : Text) : Parted already t already (t.map .char) :=
  ⟨by simp, by simp [CodeBelow], fun _ h => .inl h, readBack_map_char already t⟩

namespace CodeScan

variable {find : Recogniser} {ps : List Piece} {bs : List Block}

theorem extractCode (scan : CodeScan find ps bs) (s : Store) :
    s.extractCode find (spell ps) =
      ({ s with code := s.code ++ stashed bs }, spell (stash s.code.length bs)) := by
  rw [Store.extractCode, scan.segments, substitute_addCode]

/-- Setting aside what a scan finds keeps the text. -/
theorem parted (scan : CodeScan find ps bs) {already codes : List Text} {t : Text}
    (parted : Parted already t codes ps) :
    Parted already t (codes ++ stashed bs) (stash codes.length bs) := by
  refine ⟨spanNumbers_stash (by rw [scan.pieces, parted.spans]), ?_, ?_, ?_⟩
  · rw [List.length_append]
    exact codeBelow_stash (by rw [scan.pieces]; exact parted.below)
  · intro code h
    rcases List.mem_append.1 h with h | h
    · exact parted.code code h
    · refine .inr ⟨scan.bounded code h, ?_⟩
      obtain ⟨ms, content, mem, rfl⟩ := exists_found_of_mem_stashed h
      obtain ⟨u, rfl⟩ := scan.plain ms content mem
      obtain ⟨as, cs, rfl⟩ := List.append_of_mem mem
      rw [spell_map_char, ← parted.text]
      refine infix_readBack ?_ codes
      rw [← scan.pieces]
      exact ⟨as.flatMap Block.pieces, cs.flatMap Block.pieces, by simp [Block.pieces]⟩
  · rw [readBack_stash scan.plain List.prefix_rfl, scan.pieces,
      readBack_mono (List.prefix_append _ _) parted.below, parted.text]

end CodeScan

/-- Setting all code aside keeps the text. -/
theorem exists_parted (s : Store) (t : Text) :
    ∃ codes ps, Parted s.code t codes ps ∧
      (s.extractCode fencedCode t).1.extractCode codeSpan (s.extractCode fencedCode t).2 =
        ({ s with code := codes }, spell ps) := by
  obtain ⟨bs, blocks, lines⟩ := exists_scan_blocks t
  have first := blocks.extractCode s
  have parted := blocks.parted (parted_map_char s.code t)
  obtain ⟨bs', spans⟩ := exists_scan_spans parted.spans (lines _)
  rw [spell_map_char] at first
  rw [first]
  exact ⟨_, _, spans.parted parted, spans.extractCode _⟩

/-! ## The text with its code set aside -/

/-- A text whose code has been set aside: `ps` are its pieces and `codes` is all code. Each of the
stretches that `region` tells of has become a piece. -/
structure Stashed (region : (before code : Text) → Prop) (t : Text) (codes : List Text)
    (ps : List Piece) : Prop where
  clean : Clean ps
  spans : spanNumbers ps = []
  below : CodeBelow codes.length ps
  isCode : ∀ code ∈ codes, IsCode code
  text : readBack codes ps = t
  regions : ∀ before code, region before code → ∃ us i vs, ps = us ++ .code i :: vs ∧
    readBack codes us = before ∧ readBack codes [.code i] = code

/-- A text without the beginning of a placeholder has clean pieces. -/
theorem Parted.stashed {already codes : List Text} {t : Text} {ps : List Piece}
    (parted : Parted already t codes ps) (isCode : ∀ code ∈ already, IsCode code)
    (fresh : ¬placeholderStart <:+: t) {region : (before code : Text) → Prop}
    (regions : ∀ before code, region before code → ∃ us i vs, ps = us ++ .code i :: vs ∧
      readBack codes us = before ∧ readBack codes [.code i] = code) :
    Stashed region t codes ps := by
  refine ⟨fun start => fresh ?_, parted.spans, parted.below, fun code h => ?_, parted.text, regions⟩
  · rw [← parted.text]
    exact infix_readBack start codes
  · rcases parted.code code h with h | ⟨bounded, inside⟩
    · exact isCode code h
    · exact ⟨bounded, fun start => fresh (start.trans inside)⟩

/-- What the first scan leaves: each block of code is a piece. -/
theorem CodeScan.regions_blocks {t : Text} {bs : List Block} (scan : CodeScan fencedCode (t.map .char) bs)
    (already : List Text) {before code : Text} (h : FoundAt fencedCode t before code) :
    ∃ us i vs, stash already.length bs = us ++ .code i :: vs ∧
      readBack (already ++ stashed bs) us = before ∧ readBack (already ++ stashed bs) [.code i] = code := by
  obtain ⟨xs, content, ys, h, rfl⟩ := h
  have segments := scan.segments
  rw [spell_map_char] at segments
  rw [segments] at h
  obtain ⟨as, ms, cs, rfl, rfl, rfl⟩ := exists_found_of_segments h
  obtain ⟨i, vs, split, left, here⟩ := stash_found scan.plain List.prefix_rfl
  refine ⟨_, i, vs, split, ?_, here⟩
  rw [left, flatMap_source_segments_block]
  -- What stands before the block is text, and reads back as itself.
  have pieces := scan.pieces
  rw [List.flatMap_append] at pieces
  obtain ⟨u, w, _, hu, _⟩ := List.map_eq_append_iff.1 pieces.symm
  rw [← hu, readBack_map_char, spell_map_char]

/-- Setting code aside keeps the text, and every stretch of code becomes one piece. -/
theorem exists_code_setAside {s : Store} (isCode : ∀ code ∈ s.code, IsCode code) {t : Text}
    (fresh : ¬placeholderStart <:+: t) :
    ∃ codes ps, Stashed (CodeRegion s t) t codes ps ∧
      (s.extractCode fencedCode t).1.extractCode codeSpan (s.extractCode fencedCode t).2 =
        ({ s with code := codes }, spell ps) := by
  obtain ⟨bs, scan, lines⟩ := exists_scan_blocks t
  have first := scan.extractCode s
  rw [spell_map_char] at first
  have parted := scan.parted (parted_map_char s.code t)
  have blocks : Stashed (FoundAt fencedCode t) t _ _ :=
    parted.stashed isCode fresh fun before code h => scan.regions_blocks s.code h
  obtain ⟨bs', spans⟩ := exists_scan_spans parted.spans (lines _)
  rw [first]
  refine ⟨_, _, (spans.parted parted).stashed isCode fresh ?_, spans.extractCode _⟩
  generalize s.code ++ stashed bs = codes at *
  generalize stash s.code.length bs = ps at *
  have more : codes <+: codes ++ stashed bs' := List.prefix_append _ _
  have plain := spans.plain
  have pieces := spans.pieces
  intro before code region
  cases region with
  | block h =>
    obtain ⟨us, i, vs, rfl, left, here⟩ := blocks.regions _ _ h
    obtain ⟨as, cs, rfl, rfl⟩ := exists_keep_of_code plain pieces
    obtain ⟨vs', split, left'⟩ := stash_keep plain List.prefix_rfl
    refine ⟨_, i, vs', split, ?_, ?_⟩
    · rw [left', ← left,
        readBack_mono more fun i hi => blocks.below i (List.mem_append_left _ hi)]
    · rw [← here, readBack_mono more fun j hj => blocks.below j (by simp_all)]
  | span h =>
    rw [first] at h ⊢
    obtain ⟨xs, content, ys, h, rfl⟩ := h
    rw [spans.segments] at h
    obtain ⟨as, ms, cs, rfl, rfl, rfl⟩ := exists_found_of_segments h
    obtain ⟨i, vs, split, left, here⟩ := stash_found plain List.prefix_rfl
    have part : as.flatMap Block.pieces <:+: ps := ⟨[], _, by rw [← pieces]; simp; rfl⟩
    have part' : ms <:+: ps :=
      ⟨as.flatMap Block.pieces, cs.flatMap Block.pieces, by rw [← pieces]; simp [Block.pieces]⟩
    obtain ⟨u, rfl⟩ := plain ms content (by simp)
    refine ⟨_, i, vs, split, ?_, ?_⟩
    · rw [left, flatMap_source_segments_block,
        restoreCode_spell blocks.isCode (blocks.clean.mono part),
        readBack_mono more fun i hi => blocks.below i (part.subset hi), readBack]
    · rw [here, restoreCode_spell blocks.isCode (blocks.clean.mono part'), ← readBack,
        readBack_map_char, spell_map_char]

end OfficeFormula.Span
