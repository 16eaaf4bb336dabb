import OfficeFormula.Proofs.Span.Stash

/-!
# What setting formulas aside keeps

`Follows` ties a store to the working text that belongs to it: the entries are those of the
placeholders in the text, in the order of their numbers, and every placeholder stands for pieces of
the text as it was before any formula was set aside. Each step that sets one formula aside keeps it
(`Follows.add`), as long as the placeholders in the text are pieces. That is so in a clean text
(`Tracks`).

What such a step keeps (`KeptByAdd`), the search for each written form keeps, and so does the search
for all of them (`KeptByAdd.extractLatex`). Rendered markup is set aside first, and no step of the
search takes it in.
-/

namespace OfficeFormula.Span

/-- The pieces of the first text that a piece stands for; `σ` tells them for formulas. -/
def Piece.source (σ : Nat → List Piece) : Piece → List Piece
  | .span i => σ i
  | p => [p]

theorem flatMap_source_map_char (σ : Nat → List Piece) (t : Text) :
    (t.map Piece.char).flatMap (Piece.source σ) = t.map .char := by
  simp [List.flatMap_map, Piece.source, ← List.map_eq_flatMap]

/-- The first text reads the same for two maps that agree on the formulas of the pieces. -/
theorem flatMap_source_congr {σ τ : Nat → List Piece} {ps : List Piece}
    (agree : ∀ i ∈ spanNumbers ps, σ i = τ i) :
    ps.flatMap (Piece.source σ) = ps.flatMap (Piece.source τ) := by
  induction ps with
  | nil => rfl
  | cons p ps ih =>
    rw [List.flatMap_cons, List.flatMap_cons]
    cases p with
    | span i =>
      have here := agree i (by simp)
      rw [ih fun j hj => agree j (by simp [hj])]
      simp only [Piece.source, here]
    | char c => rw [ih agree]; rfl
    | code i => rw [ih agree]; rfl

/-- A text without formulas stands for itself. -/
theorem flatMap_source_of_no_span (σ : Nat → List Piece) {ps : List Piece}
    (none : spanNumbers ps = []) : ps.flatMap (Piece.source σ) = ps := by
  have same : Piece.source (fun i => [.span i]) = ([·]) := by
    funext p
    cases p <;> rfl
  rw [flatMap_source_congr (τ := fun i => [.span i]) (by simp [none]), same, List.flatMap_singleton']

/-- The store and the working text `ps` belong together. `first` is the text before formulas were set
aside, `elsewhere` has the numbers of the formulas whose placeholders are in other texts, and `σ`
tells what each formula of this text was made from. -/
structure Follows (first : List Piece) (elsewhere : List Nat) (codes : List Text)
    (σ : Nat → List Piece) (s : Store) (ps : List Piece) : Prop where
  code : s.code = codes
  numbers : (s.spans.map Entry.index).Perm (elsewhere ++ spanNumbers ps)
  sorted : s.spans.Pairwise (·.index < ·.index)
  below : ∀ e ∈ s.spans, e.index < s.next
  source : ps.flatMap (Piece.source σ) = first
  formed : ∀ e ∈ s.spans, e.index ∈ spanNumbers ps → ∃ opening inner closing,
    Delimits e.kind opening closing ∧
      σ e.index = opening.map .char ++ inner ++ closing.map .char

/-- They belong together, and the text is clean. -/
structure Tracks (first : List Piece) (elsewhere : List Nat) (codes : List Text)
    (σ : Nat → List Piece) (s : Store) (ps : List Piece) : Prop
    extends Follows first elsewhere codes σ s ps where
  clean : Clean ps

namespace Follows

variable {first : List Piece} {elsewhere : List Nat} {codes : List Text} {σ : Nat → List Piece}
  {s : Store} {ps : List Piece}

theorem nodup (follows : Follows first elsewhere codes σ s ps) :
    (elsewhere ++ spanNumbers ps).Nodup := by
  apply follows.numbers.nodup
  rw [List.Nodup, List.pairwise_map]
  exact follows.sorted.imp Nat.ne_of_lt

theorem lt_next (follows : Follows first elsewhere codes σ s ps) {i : Nat}
    (h : i ∈ elsewhere ++ spanNumbers ps) : i < s.next := by
  obtain ⟨e, he, rfl⟩ := List.mem_map.1 (follows.numbers.mem_iff.2 h)
  exact follows.below e he

end Follows

/-- Taking the formulas `ns` out of numbers that are all different. -/
theorem filter_not_mem_of_nodup {xs ns ys : List Nat} (nodup : (xs ++ ns ++ ys).Nodup) :
    (xs ++ ns ++ ys).filter (· ∉ ns) = xs ++ ys := by
  obtain ⟨left, _, disjoint⟩ := List.nodup_append.1 nodup
  obtain ⟨_, _, disjoint'⟩ := List.nodup_append.1 left
  have keep : xs.filter (· ∉ ns) = xs := by
    apply List.filter_eq_self.2
    intro x hx
    simpa using fun hn => disjoint' x hx x hn rfl
  have keep' : ys.filter (· ∉ ns) = ys := by
    apply List.filter_eq_self.2
    intro y hy
    simpa using fun hn => disjoint y (List.mem_append_right _ hn) y hy rfl
  have drop : ns.filter (· ∉ ns) = [] := by
    apply List.filter_eq_nil_iff.2
    intro n hn
    simp [hn]
  rw [List.filter_append, List.filter_append, keep, keep', drop, List.append_nil]

/-! ## Setting one formula aside -/

section Add

variable {first : List Piece} {elsewhere : List Nat} {codes : List Text} {σ : Nat → List Piece}
  {s : Store} {done bs todo : List Piece} {kind : Kind} {opening closing content : Text}

/-- Setting a delimited stretch aside: its placeholder takes its place, and the formulas that it takes
in go. -/
theorem Follows.add
    (follows : Follows first elsewhere codes σ s
      (done ++ (opening.map .char ++ bs ++ closing.map .char) ++ todo))
    (delimits : Delimits kind opening closing) (holds : Holds opening (spell bs) closing content)
    (free : ∀ e ∈ s.spans, Avoids e.word (opening.map .char ++ bs ++ closing.map .char)) :
    Follows first elsewhere codes
      (fun i => if i = s.next then opening.map .char ++ bs.flatMap (Piece.source σ) ++ closing.map .char
        else σ i)
      (s.add kind content).1 (done ++ [.span s.next] ++ todo) := by
  obtain ⟨cs, rfl, taken, avoids⟩ := holds.exists_content
  have spans := spans_add_spell s kind fun e he =>
    avoids e.word (isMark_eq_false_of_mem_word (p := .span e.index) rfl) (free e he)
  rw [taken] at spans
  have next : (s.add kind (spell cs)).1.next = s.next + 1 := rfl
  have numbers : spanNumbers (done ++ (opening.map .char ++ bs ++ closing.map .char) ++ todo) =
      spanNumbers done ++ spanNumbers bs ++ spanNumbers todo := by simp
  have nodup : ((elsewhere ++ spanNumbers done) ++ spanNumbers bs ++ spanNumbers todo).Nodup := by
    have := follows.nodup
    rw [numbers] at this
    simpa using this
  refine ⟨follows.code, ?numbers, ?sorted, ?below, ?source, ?formed⟩
  case numbers =>
    have kept : ((s.spans.filter (·.index ∉ spanNumbers bs)).map Entry.index).Perm
        (elsewhere ++ spanNumbers done ++ spanNumbers todo) := by
      have perm := follows.numbers.filter (· ∉ spanNumbers bs)
      rw [numbers, List.filter_map] at perm
      rw [← filter_not_mem_of_nodup nodup]
      simpa [Function.comp_def] using perm
    rw [spans, List.map_append, List.map_cons, List.map_nil]
    refine (kept.append_right _).trans ?_
    have moved := (List.perm_append_singleton s.next (spanNumbers todo)).append_left
      (elsewhere ++ spanNumbers done)
    simpa using moved
  case sorted =>
    rw [spans, List.pairwise_append]
    refine ⟨follows.sorted.filter _, List.pairwise_singleton _ _, ?_⟩
    intro e he e' he'
    rw [List.mem_singleton.1 he']
    exact follows.below e (List.mem_filter.1 he).1
  case below =>
    intro e he
    rw [spans, List.mem_append] at he
    rw [next]
    rcases he with he | he
    · exact Nat.lt_succ_of_lt (follows.below e (List.mem_filter.1 he).1)
    · rw [List.mem_singleton.1 he]
      exact Nat.lt_succ_self _
  case source =>
    have older : ∀ i ∈ spanNumbers done ++ spanNumbers todo, i ≠ s.next := by
      intro i hi
      apply Nat.ne_of_lt
      apply follows.lt_next
      rw [numbers]
      rcases List.mem_append.1 hi with hi | hi <;> simp [hi]
    rw [List.flatMap_append, List.flatMap_append, ← follows.source, List.flatMap_append,
      List.flatMap_append, List.flatMap_append, List.flatMap_append, flatMap_source_map_char,
      flatMap_source_map_char]
    congr 1
    · congr 1
      · exact flatMap_source_congr fun i hi => by simp [older i (List.mem_append_left _ hi)]
      · simp [Piece.source]
    · exact flatMap_source_congr fun i hi => by simp [older i (List.mem_append_right _ hi)]
  case formed =>
    intro e he here
    rw [spans, List.mem_append] at he
    rcases he with he | he
    · have mem := (List.mem_filter.1 he).1
      have older : e.index ≠ s.next := Nat.ne_of_lt (follows.below e mem)
      have there : e.index ∈
          spanNumbers (done ++ (opening.map .char ++ bs ++ closing.map .char) ++ todo) := by
        simp only [spanNumbers_append, spanNumbers_span, spanNumbers_nil, List.mem_append,
          List.mem_singleton, older, or_false] at here
        rw [numbers]
        rcases here with here | here <;> simp [here]
      simpa [older] using follows.formed e mem there
    · rw [List.mem_singleton.1 he]
      exact ⟨opening, bs.flatMap (Piece.source σ), closing, delimits, by simp⟩

/-- A placeholder in place of a stretch makes up no word. -/
theorem avoids_add {w : Text} {i : Nat}
    (avoids : Avoids w (done ++ (opening.map .char ++ bs ++ closing.map .char) ++ todo)) :
    Avoids w (done ++ [.span i] ++ todo) := by
  rw [List.append_assoc, List.singleton_append, avoids_append_cons (word_not_mem_map rfl w)]
  constructor
  · exact avoids.mono ⟨[], _, by simp; rfl⟩
  · exact avoids.mono ⟨done ++ (opening.map .char ++ bs ++ closing.map .char), [], by simp⟩

theorem Tracks.add
    (tracks : Tracks first elsewhere codes σ s
      (done ++ (opening.map .char ++ bs ++ closing.map .char) ++ todo))
    (delimits : Delimits kind opening closing) (holds : Holds opening (spell bs) closing content) :
    Tracks first elsewhere codes
      (fun i => if i = s.next then opening.map .char ++ bs.flatMap (Piece.source σ) ++ closing.map .char
        else σ i)
      (s.add kind content).1 (done ++ [.span s.next] ++ todo) where
  toFollows := tracks.toFollows.add delimits holds fun e _ =>
    (tracks.clean.mono ⟨done, todo, by simp⟩).avoids_entry e
  clean := avoids_add tracks.clean

end Add

/-! ## Setting all formulas of one form aside -/

/-- The store and the working text belong together. -/
def Working (first : List Piece) (elsewhere : List Nat) (codes : List Text) (s : Store)
    (ps : List Piece) : Prop :=
  ∃ σ, Tracks first elsewhere codes σ s ps

/-- A found formula is made up of its delimiters and the pieces between them. -/
theorem FoundForm.exists_pieces {kind : Kind} {ms todo : List Piece} {hit : Hit}
    (found : FoundForm kind (spell ms ++ spell todo) hit) (length : hit.length = (spell ms).length) :
    ∃ opening bs closing, Delimits kind opening closing ∧
      ms = opening.map .char ++ bs ++ closing.map .char ∧
      Holds opening (spell bs) closing hit.content := by
  obtain ⟨opening, body, closing, rest, delimits, text, length', holds⟩ := found
  have source : spell ms = opening ++ body ++ closing :=
    (List.append_inj text (by rw [← length, length'])).1
  obtain ⟨bs, rfl, rfl⟩ := delimits.exists_pieces_of_eq source
  exact ⟨opening, bs, closing, delimits, rfl, holds⟩

/-- A pass over working texts keeps what `P` says of a store and its text. -/
def Keeps (P : Store → List Piece → Prop) (pass : Store → Text → Store × Text) : Prop :=
  ∀ s ps, P s ps → ∃ out, (pass s (spell ps)).2 = spell out ∧ P (pass s (spell ps)).1 out

theorem Keeps.andThen {P : Store → List Piece → Prop} {pass pass' : Store → Text → Store × Text}
    (keeps : Keeps P pass) (keeps' : Keeps P pass') :
    Keeps P fun s t => pass' (pass s t).1 (pass s t).2 := by
  intro s ps start
  obtain ⟨out, text, kept⟩ := keeps s ps start
  simp only [text]
  exact keeps' _ _ kept

/-- A delimited stretch may be set aside as LaTeX: it takes in no rendered markup. -/
structure MayTake (s : Store) (bs : List Piece) (kind : Kind) (opening closing content : Text) :
    Prop where
  delimits : Delimits kind opening closing
  holds : Holds opening (spell bs) closing content
  latex : kind ≠ .rendered
  free : s.holdsRendered content = false

/-- `P` still holds when LaTeX has been set aside. -/
def KeptByAdd (P : Store → List Piece → Prop) : Prop :=
  ∀ ⦃s done bs todo kind opening closing content⦄,
    P s (done ++ (opening.map .char ++ bs ++ closing.map .char) ++ todo) →
    MayTake s bs kind opening closing content →
    P (s.add kind content).1 (done ++ [.span s.next] ++ todo)

/-- `P` still holds when a formula of any kind has been set aside. -/
def KeptByAnyAdd (P : Store → List Piece → Prop) : Prop :=
  ∀ ⦃s done bs todo kind opening closing content⦄,
    P s (done ++ (opening.map .char ++ bs ++ closing.map .char) ++ todo) →
    Delimits kind opening closing → Holds opening (spell bs) closing content →
    P (s.add kind content).1 (done ++ [.span s.next] ++ todo)

namespace KeptByAdd

variable {P : Store → List Piece → Prop} {s : Store} {done bs todo : List Piece} {kind : Kind}
  {opening closing content : Text}

/-- A formula that is refused stays as it is written. -/
theorem extract (kept : KeptByAdd P)
    (start : P s (done ++ (opening.map .char ++ bs ++ closing.map .char) ++ todo))
    (delimits : Delimits kind opening closing) (holds : Holds opening (spell bs) closing content)
    (latex : kind ≠ .rendered) :
    ∃ new, (s.extract kind (opening ++ spell bs ++ closing) content).2 = spell new ∧
      P (s.extract kind (opening ++ spell bs ++ closing) content).1 (done ++ new ++ todo) := by
  unfold Store.extract
  split
  · exact ⟨_, by simp, start⟩
  · next free =>
    exact ⟨[.span s.next], by simp [Store.add, Piece.text],
      kept start ⟨delimits, holds, latex, by simpa using free⟩⟩

theorem extractForm (kept : KeptByAdd P) {find : Recogniser} (finds : FindsForm find kind)
    (latex : kind ≠ .rendered) : Keeps P (Store.extractForm find kind) := by
  intro s ps start
  refine substitute_preserves finds.bounded ?_ start
  intro previous s done ms todo content hit start
  obtain ⟨opening, bs, closing, delimits, rfl, holds⟩ := (finds _ _ _ hit).exists_pieces rfl
  simpa using kept.extract start delimits holds latex

/-- Brackets on lines of their own are a formula whose content is trimmed when it is set aside. -/
theorem extractBracketBlocks (kept : KeptByAdd P) : Keeps P Store.extractBracketBlocks := by
  intro s ps start
  refine substitute_preserves findsBounded_bracketBlock ?_ start
  intro previous s done ms todo content hit start
  split
  · obtain ⟨opening, closing, rest, delimits, text, length⟩ := exists_of_bracketBlock hit
    have found : FoundForm .block (spell ms ++ spell todo) ⟨(spell ms).length, content.trim⟩ :=
      ⟨opening, content, closing, rest, delimits, text, length, holds_trim _ _ _⟩
    obtain ⟨opening, bs, closing, delimits, rfl, holds⟩ := found.exists_pieces rfl
    simpa using kept.extract start delimits holds (by decide)
  · exact ⟨ms, rfl, start⟩

end KeptByAdd

/-! ## Plain parentheses -/

/-- What the scan has read of parentheses that are still open. -/
def opened (depth : Nat) (held : List Piece) : List Piece :=
  if depth = 0 then [] else .char '(' :: held

/-- Outside parentheses, text without any is copied; inside, it is held. -/
theorem softScan_append (isMath : Text → Bool) (s : Store) {w : Text}
    (plain : ∀ c ∈ w, c ≠ '(' ∧ c ≠ ')') (previous : Option Char) (depth : Nat) (held t : Text) :
    s.softScan isMath previous depth held (w ++ t) =
      if depth = 0 then
        ((s.softScan isMath (lastChar previous w) 0 held t).1,
          w ++ (s.softScan isMath (lastChar previous w) 0 held t).2)
      else s.softScan isMath (lastChar previous w) depth (w.reverse ++ held) t := by
  induction w generalizing previous held with
  | nil =>
    by_cases outside : depth = 0
    · simp [outside, lastChar]
    · simp [outside, lastChar]
  | cons c cs ih =>
    obtain ⟨opens, closes⟩ := plain c List.mem_cons_self
    have ih := fun previous held => ih (fun d hd => plain d (List.mem_cons_of_mem _ hd)) previous held
    rw [List.cons_append, Store.softScan, if_neg opens, if_neg (by simp [closes])]
    by_cases outside : depth = 0
    · subst outside
      rw [if_neg (by simp), ih]
      simp [lastChar]
    · rw [if_pos (Nat.pos_of_ne_zero outside), ih, if_neg outside, if_neg outside]
      simp [lastChar]

theorem KeptByAdd.closeParentheses {P : Store → List Piece → Prop} (kept : KeptByAdd P) {s : Store}
    {done bs todo : List Piece} (isMath : Text → Bool)
    (start : P s (done ++ (.char '(' :: bs ++ [.char ')']) ++ todo)) :
    ∃ new, (s.closeParentheses isMath (spell bs)).2 = spell new ∧
      P (s.closeParentheses isMath (spell bs)).1 (done ++ new ++ todo) := by
  unfold Store.closeParentheses
  split
  · have delimited : P s (done ++ (['('].map .char ++ bs ++ [')'].map .char) ++ todo) := start
    exact kept.extract delimited .parentheses (holds_self _ _ _) (by decide)
  · exact ⟨_, by simp [Store.inParentheses, Piece.text], start⟩

theorem exists_parenthesis {p : Piece} (h : ¬∀ c ∈ p.text, c ≠ '(' ∧ c ≠ ')') :
    p = .char '(' ∨ p = .char ')' := by
  cases word : p.isWord with
  | true =>
    refine absurd (fun c hc => ?_) h
    have letter := isMark_eq_false_of_mem_word word c hc
    constructor
    · rintro rfl
      exact absurd letter (by decide)
    · rintro rfl
      exact absurd letter (by decide)
  | false =>
    cases p with
    | code i => simp [Piece.isWord] at word
    | span i => simp [Piece.isWord] at word
    | char c =>
      rw [Piece.char.injEq, Piece.char.injEq]
      by_cases opens : c = '('
      · exact .inl opens
      · refine .inr (Classical.byContradiction fun closes => h ?_)
        simp [Piece.text, opens, closes]

/-- The run of the scan, over the pieces that are still to be read. A placeholder is read like any
other text without parentheses. -/
theorem KeptByAdd.softScan {P : Store → List Piece → Prop} (kept : KeptByAdd P) {ps : List Piece}
    (isMath : Text → Bool) (s : Store) (done held : List Piece) (depth : Nat) (text : Text)
    (previous : Option Char) (reads : depth ≠ 0 → text = (spell held).reverse)
    (start : P s (done ++ opened depth held ++ ps)) :
    ∃ out, (s.softScan isMath previous depth text (spell ps)).2 = spell out ∧
      P (s.softScan isMath previous depth text (spell ps)).1 (done ++ out) := by
  induction ps generalizing s done held depth text previous with
  | nil =>
    refine ⟨opened depth held, ?_, by simpa [Store.softScan] using start⟩
    by_cases outside : depth = 0
    · simp [Store.softScan, opened, outside]
    · simp [Store.softScan, opened, outside, reads outside, Piece.text]
  | cons p ps ih =>
    by_cases plain : ∀ c ∈ p.text, c ≠ '(' ∧ c ≠ ')'
    · rw [spell_cons, softScan_append isMath s plain]
      by_cases outside : depth = 0
      · subst outside
        obtain ⟨out, copied, more⟩ := ih s (done ++ [p]) [] 0 text (lastChar previous p.text) (by simp)
          (by simpa [opened] using start)
        exact ⟨p :: out, by simp [copied], by simpa using more⟩
      · rw [if_neg outside]
        exact ih s done (held ++ [p]) depth _ _ (fun _ => by simp [reads outside])
          (by simpa [opened, outside] using start)
    · rcases exists_parenthesis plain with rfl | rfl
      · rw [spell_cons, Piece.text, List.singleton_append, Store.softScan, if_pos rfl]
        by_cases outside : depth = 0
        · subst outside
          rw [if_pos rfl]
          by_cases link : previous = some ']'
          · rw [if_pos link]
            obtain ⟨out, copied, more⟩ := ih s (done ++ [.char '(']) [] 0 text (some '(') (by simp)
              (by simpa [opened] using start)
            exact ⟨.char '(' :: out, by simp [copied, Piece.text], by simpa using more⟩
          · rw [if_neg link]
            exact ih s done [] 1 [] _ (by simp) (by simpa [opened] using start)
        · rw [if_neg outside]
          exact ih s done (held ++ [.char '(']) (depth + 1) _ _
            (fun _ => by simp [reads outside, Piece.text]) (by simpa [opened, outside] using start)
      · rw [spell_cons, Piece.text, List.singleton_append, Store.softScan, if_neg (by decide)]
        rcases Nat.lt_trichotomy depth 1 with outside | rfl | inside
        · obtain rfl : depth = 0 := by omega
          rw [if_neg (by simp), if_neg (by simp)]
          obtain ⟨out, copied, more⟩ := ih s (done ++ [.char ')']) [] 0 text (some ')') (by simp)
            (by simpa [opened] using start)
          exact ⟨.char ')' :: out, by simp [copied, Piece.text], by simpa using more⟩
        · rw [if_pos (by simp), if_pos rfl, reads (by simp), List.reverse_reverse]
          have closed : P s (done ++ (.char '(' :: held ++ [.char ')']) ++ ps) := by
            simpa [opened] using start
          obtain ⟨new, replaced, closed'⟩ := kept.closeParentheses isMath closed
          obtain ⟨out, copied, more⟩ := ih _ (done ++ new) [] 0 [] (some ')') (by simp)
            (by simpa [opened] using closed')
          exact ⟨new ++ out, by simp [replaced, copied], by simpa using more⟩
        · rw [if_pos (by simp; omega), if_neg (by omega)]
          have deep : depth ≠ 0 := by omega
          have deep' : depth - 1 ≠ 0 := by omega
          exact ih s done (held ++ [.char ')']) (depth - 1) _ _
            (fun _ => by simp [reads deep, Piece.text])
            (by simpa [opened, deep, deep'] using start)

theorem KeptByAdd.extractSoft {P : Store → List Piece → Prop} (kept : KeptByAdd P)
    (isMath : Text → Bool) : Keeps P (Store.extractSoft isMath) := by
  intro s ps start
  simpa [opened, Store.extractSoft] using
    kept.softScan isMath s [] [] 0 [] none (by simp) (by simpa [opened] using start)

/-! ## Setting all formulas of a text aside -/

/-- The search for LaTeX in all its forms, after rendered markup has been set aside. -/
def extractLatex (soft : SoftParentheses) (s : Store) (t : Text) : Store × Text :=
  let (s, t) := s.extractBracketBlocks t
  let (s, t) := s.extractForm environment .block t
  let (s, t) := s.extractForm displayBracket .block t
  let (s, t) := s.extractForm displayDollar .block t
  let (s, t) := s.extractForm inlineParenthesis .inline t
  let (s, t) := s.extractForm inlineDollar .inline t
  if soft.enabled then s.extractSoft soft.isMath t else (s, t)

/-- All that is done to a text between setting its code aside and putting it back. -/
def extractAll (soft : SoftParentheses) (s : Store) (t : Text) : Store × Text :=
  extractLatex soft (s.extractRendered t).1 (s.extractRendered t).2

theorem KeptByAdd.extractLatex {P : Store → List Piece → Prop} (kept : KeptByAdd P)
    (soft : SoftParentheses) : Keeps P (Span.extractLatex soft) := by
  have last : Keeps P fun s t => if soft.enabled then s.extractSoft soft.isMath t else (s, t) := by
    split
    · exact kept.extractSoft soft.isMath
    · exact fun s ps start => ⟨ps, rfl, start⟩
  exact kept.extractBracketBlocks
    |>.andThen (kept.extractForm findsForm_environment (by decide))
    |>.andThen (kept.extractForm findsForm_displayBracket (by decide))
    |>.andThen (kept.extractForm findsForm_displayDollar (by decide))
    |>.andThen (kept.extractForm findsForm_inlineParenthesis (by decide))
    |>.andThen (kept.extractForm findsForm_inlineDollar (by decide))
    |>.andThen last

namespace KeptByAnyAdd

variable {P : Store → List Piece → Prop} (kept : KeptByAnyAdd P)
include kept

theorem keptByAdd : KeptByAdd P := fun _ _ _ _ _ _ _ _ start takes => kept start takes.delimits takes.holds

theorem extractRendered : Keeps P Store.extractRendered := by
  intro s ps start
  refine substitute_preserves findsForm_renderedMarkup.bounded ?_ start
  intro previous s done ms todo content hit start
  obtain ⟨opening, bs, closing, delimits, rfl, holds⟩ :=
    (findsForm_renderedMarkup _ _ _ hit).exists_pieces rfl
  exact ⟨[.span s.next], by simp [Store.add, Piece.text], kept start delimits holds⟩

theorem extractAll (soft : SoftParentheses) : Keeps P (Span.extractAll soft) :=
  kept.extractRendered.andThen (kept.keptByAdd.extractLatex soft)

end KeptByAnyAdd

theorem keptByAnyAdd_working (first : List Piece) (elsewhere : List Nat) (codes : List Text) :
    KeptByAnyAdd (Working first elsewhere codes) := by
  rintro s done bs todo kind opening closing content ⟨σ, tracks⟩ delimits holds
  exact ⟨_, tracks.add delimits holds⟩

theorem protectWith_eq (soft : SoftParentheses) {s s' : Store} {t t' : Text}
    (code : (s.extractCode fencedCode t).1.extractCode codeSpan (s.extractCode fencedCode t).2 =
      (s', t')) :
    protectWith soft s t =
      ((extractAll soft s' t').1,
        Store.restoreCode (extractAll soft s' t').1.code (extractAll soft s' t').2) := by
  unfold protectWith extractAll extractLatex
  simp only [code]

/-- Before any formula is set aside, the text with its code set aside belongs to the store. -/
theorem follows_first {first : List Piece} (none : spanNumbers first = []) (codes : List Text)
    {elsewhere : List Nat} {s : Store} (numbers : (s.spans.map Entry.index).Perm elsewhere)
    (sorted : s.spans.Pairwise (·.index < ·.index)) (below : ∀ e ∈ s.spans, e.index < s.next) :
    Follows first elsewhere codes (fun i => [.span i]) { s with code := codes } first := by
  refine ⟨rfl, ?_, sorted, below, ?_, ?_⟩
  · simpa [none] using numbers
  · exact flatMap_source_of_no_span _ none
  · intro e _ here
    simp [none] at here

theorem Stashed.tracks {region : (before code : Text) → Prop} {t : Text} {codes : List Text}
    {first : List Piece} (stashed : Stashed region t codes first) {elsewhere : List Nat} {s : Store}
    (numbers : (s.spans.map Entry.index).Perm elsewhere) (sorted : s.spans.Pairwise (·.index < ·.index))
    (below : ∀ e ∈ s.spans, e.index < s.next) :
    Tracks first elsewhere codes (fun i => [.span i]) { s with code := codes } first :=
  ⟨follows_first stashed.spans codes numbers sorted below, stashed.clean⟩

/-- What `protectWith` leaves: a working text that belongs to the store, with its code put back. -/
theorem exists_working (soft : SoftParentheses) {elsewhere : List Nat} {s : Store} {t : Text}
    (isCode : ∀ code ∈ s.code, IsCode code) (fresh : ¬placeholderStart <:+: t)
    (numbers : (s.spans.map Entry.index).Perm elsewhere) (sorted : s.spans.Pairwise (·.index < ·.index))
    (below : ∀ e ∈ s.spans, e.index < s.next) :
    ∃ codes first ps, Stashed (CodeRegion s t) t codes first ∧
      Working first elsewhere codes (protectWith soft s t).1 ps ∧
      (protectWith soft s t).2 = spell (ps.flatMap (Piece.restored 0 codes)) := by
  obtain ⟨codes, first, stashed, code⟩ := exists_code_setAside isCode fresh
  have start : Working first elsewhere codes { s with code := codes } first :=
    ⟨_, stashed.tracks numbers sorted below⟩
  obtain ⟨ps, text, working⟩ := (keptByAnyAdd_working _ _ _).extractAll soft _ _ start
  rw [protectWith_eq soft code]
  obtain ⟨σ, tracks⟩ := working
  refine ⟨codes, first, ps, stashed, ⟨σ, tracks⟩, ?_⟩
  rw [text, tracks.code, restoreCode_spell stashed.isCode tracks.clean]

end OfficeFormula.Span
