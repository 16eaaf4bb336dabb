import Mathlib.Data.List.Forall2
import OfficeFormula.Proofs.Span.Correspondence
import OfficeFormula.Proofs.Span.Lossless

/-!
# Rendered markup is kept

Rendered markup is set aside before LaTeX is looked for, and from then on its placeholder stays where
it is: a formula that would take it in is refused. `Stands` says that an entry still has its place.
The scan for rendered markup puts every entry in place (`Cut.renders`), and setting LaTeX aside leaves
all of them there (`keptByAdd_renders`). At the end there is one entry for each rendered markup of the
text, in their order, and no formula reaches into any of them (`protectWith_keeps_rendered`).
-/

namespace OfficeFormula.Span

/-! ## Rendered markup of a text -/

/-- Rendered markup in a text. -/
structure RenderedRegion where
  /-- All that stands before it. -/
  before : Text
  /-- What stands between its two comments. -/
  content : Text

namespace RenderedRegion

/-- The markup with its comments. -/
def source (r : RenderedRegion) : Text := renderedStart ++ r.content ++ renderedEnd

def stretch (r : RenderedRegion) : Stretch := .behind r.before r.source

end RenderedRegion

/-- The rendered markup among segments that `before` stands before, with code put back. -/
def renderedRegions (codes : List Text) (before : Text) : List Segment → List RenderedRegion
  | [] => []
  | .plain c :: rest => renderedRegions codes (before ++ [c]) rest
  | .found source content :: rest =>
    ⟨Store.restoreCode codes before, Store.restoreCode codes content⟩ ::
      renderedRegions codes (before ++ source) rest

/-- The rendered markup that is found in a text after its code has been set aside. -/
def renderedIn (t : Text) : List RenderedRegion :=
  let (s, t) := Store.empty.extractCode fencedCode t
  let (s, t) := s.extractCode codeSpan t
  renderedRegions s.code [] (segments renderedMarkup t)

theorem renderedRegions_plain (codes : List Text) (before w : Text) (rest : List Segment) :
    renderedRegions codes before (w.map .plain ++ rest) = renderedRegions codes (before ++ w) rest := by
  induction w generalizing before with
  | nil => simp
  | cons c cs ih => simp [renderedRegions, ih]

/-- The entries of rendered markup. -/
def Store.rendered (s : Store) : List Entry := s.spans.filter (·.kind = .rendered)

theorem Store.mem_rendered {s : Store} {e : Entry} :
    e ∈ s.rendered ↔ e ∈ s.spans ∧ e.kind = .rendered := by
  simp [Store.rendered]

/-! ## Entries in their places -/

/-- The placeholder of `e` stands in the working text where the rendered markup was. -/
structure Stands (codes : List Text) (σ : Nat → List Piece) (ps : List Piece) (e : Entry)
    (r : RenderedRegion) : Prop where
  content : e.content = r.content
  made : ∃ inner, σ e.index = renderedStart.map .char ++ inner ++ renderedEnd.map .char ∧
    readBack codes inner = r.content
  place : ∃ us vs, ps = us ++ .span e.index :: vs ∧
    readBack codes (us.flatMap (Piece.source σ)) = r.before

/-- A placeholder that comes in for other pieces moves no entry that is not among them. -/
theorem Stands.replace {codes : List Text} {σ τ : Nat → List Piece} {done ms todo : List Piece}
    {n : Nat} {e : Entry} {r : RenderedRegion} (stands : Stands codes σ (done ++ ms ++ todo) e r)
    (same : ∀ i ∈ spanNumbers (done ++ ms ++ todo), τ i = σ i)
    (new : τ n = ms.flatMap (Piece.source σ)) (free : e.index ∉ spanNumbers ms) :
    Stands codes τ (done ++ [.span n] ++ todo) e r := by
  obtain ⟨us, vs, split, before⟩ := stands.place
  have here : τ e.index = σ e.index := same _ (by rw [split]; simp)
  refine ⟨stands.content, by rw [here]; exact stands.made, ?_⟩
  rcases exists_part_of_append split.symm with ⟨ws, rfl⟩ | ⟨ws, ws', rfl, rfl⟩ | ⟨ws, rfl⟩
  · refine ⟨us, ws ++ [.span n] ++ todo, by simp, ?_⟩
    rw [← before, flatMap_source_congr fun i hi => same i (by simp [hi])]
  · exact absurd (by simp) free
  · -- The new placeholder stands for what it comes in for, so the place is the same.
    obtain rfl : todo = ws ++ .span e.index :: vs := by simpa using split
    refine ⟨done ++ [.span n] ++ ws, vs, by simp, ?_⟩
    rw [← before]
    simp only [List.flatMap_append, List.flatMap_cons, List.flatMap_nil, List.append_nil]
    rw [show Piece.source τ (.span n) = τ n from rfl, new,
      flatMap_source_congr fun i (hi : i ∈ spanNumbers done) => same i (by simp [hi]),
      flatMap_source_congr fun i (hi : i ∈ spanNumbers ws) => same i (by simp [hi])]

/-- The store belongs to the working text, and its entries of rendered markup stand for `regions`. -/
def Renders (first : List Piece) (codes : List Text) (regions : List RenderedRegion) (s : Store)
    (ps : List Piece) : Prop :=
  ∃ σ, Tracks first [] codes σ s ps ∧ List.Forall₂ (Stands codes σ ps) s.rendered regions

section Add

variable {first : List Piece} {codes : List Text} {σ : Nat → List Piece} {s : Store}
  {done bs todo : List Piece} {kind : Kind} {opening closing : Text} {regions : List RenderedRegion}

/-- Setting a formula aside leaves the entries in their places whose placeholders it does not take
in. -/
theorem forall₂_stands_add
    (tracks : Tracks first [] codes σ s
      (done ++ (opening.map .char ++ bs ++ closing.map .char) ++ todo))
    (stands : List.Forall₂
      (Stands codes σ (done ++ (opening.map .char ++ bs ++ closing.map .char) ++ todo)) s.rendered regions)
    (free : ∀ e ∈ s.rendered, e.index ∉ spanNumbers bs) :
    List.Forall₂
      (Stands codes
        (fun i => if i = s.next then
          opening.map .char ++ bs.flatMap (Piece.source σ) ++ closing.map .char else σ i)
        (done ++ [.span s.next] ++ todo))
      s.rendered regions := by
  refine ((List.forall₂_and_left _ _).2 ⟨free, stands⟩).imp ?_
  rintro e r ⟨free, stands⟩
  apply stands.replace
  · intro i hi
    exact if_neg (Nat.ne_of_lt (tracks.lt_next hi))
  · simp [flatMap_source_map_char]
  · simpa using free

/-- LaTeX that is set aside takes in no rendered markup. -/
theorem free_of_mayTake {ps : List Piece} {content : Text} (tracks : Tracks first [] codes σ s ps)
    (part : opening.map .char ++ bs ++ closing.map .char <:+: ps)
    (takes : MayTake s bs kind opening closing content) :
    ∀ e ∈ s.rendered, e.index ∉ spanNumbers bs := by
  obtain ⟨cs, rfl, clean, taken⟩ := takes.holds.exists_pieces (tracks.clean.mono part)
  intro e he inside
  obtain ⟨mem, rendered⟩ := Store.mem_rendered.1 he
  rw [← taken] at inside
  have holds := holdsRendered_spell tracks.sorted clean mem rendered inside
  rw [takes.free] at holds
  simp at holds

/-- Setting LaTeX aside keeps all entries of rendered markup. -/
theorem keptByAdd_renders : KeptByAdd (Renders first codes regions) := by
  rintro s done bs todo kind opening closing content ⟨σ, tracks, stands⟩ takes
  have part : opening.map .char ++ bs ++ closing.map .char <:+:
      done ++ (opening.map .char ++ bs ++ closing.map .char) ++ todo := ⟨done, todo, rfl⟩
  have free := free_of_mayTake tracks part takes
  have same : (s.add kind content).1.rendered = s.rendered := by
    obtain ⟨cs, rfl, clean, taken⟩ := takes.holds.exists_pieces (tracks.clean.mono part)
    rw [Store.rendered, spans_add_spell s kind fun e _ => clean.avoids_entry e, taken, List.filter_append,
      List.filter_filter]
    simp only [List.filter_cons, takes.latex, decide_false, Bool.false_eq_true, if_false,
      List.filter_nil, List.append_nil]
    apply List.filter_congr
    intro e he
    by_cases rendered : e.kind = .rendered
    · simpa [rendered] using free e (Store.mem_rendered.2 ⟨he, rendered⟩)
    · simp [rendered]
  refine ⟨_, tracks.add takes.delimits takes.holds, ?_⟩
  rw [same]
  exact forall₂_stands_add tracks stands free

end Add

/-! ## Setting rendered markup aside -/

section Rendered

variable {first before done todo : List Piece} {codes : List Text} {regions : List RenderedRegion}
  {s : Store}

/-- The step of the scan: rendered markup is set aside, and its entry has its place. -/
theorem Renders.add {bs : List Piece} (isCode : ∀ code ∈ codes, IsCode code) (clean : Clean first)
    (split : first = before ++ (renderedStart.map .char ++ bs ++ renderedEnd.map .char) ++ todo)
    (plain : spanNumbers (bs ++ todo) = [])
    (renders : Renders first codes regions s
      (done ++ (renderedStart.map .char ++ bs ++ renderedEnd.map .char) ++ todo)) :
    Renders first codes
      (regions ++ [⟨Store.restoreCode codes (spell before), Store.restoreCode codes (spell bs)⟩])
      (s.add .rendered (spell bs)).1 (done ++ [.span s.next] ++ todo) := by
  obtain ⟨σ, tracks, stands⟩ := renders
  rw [spanNumbers_append, List.append_eq_nil_iff] at plain
  have cleanBefore : Clean before := clean.mono ⟨[], _, by rw [split]; simp; rfl⟩
  have cleanInside : Clean bs :=
    clean.mono ⟨before ++ renderedStart.map .char, renderedEnd.map .char ++ todo, by rw [split]; simp⟩
  -- No formula is left to be read, so what has been read stands for all before the markup.
  have whole : done.flatMap (Piece.source σ) = before := by
    have source := tracks.source
    rw [split] at source
    simpa [flatMap_source_map_char, flatMap_source_of_no_span σ plain.1,
      flatMap_source_of_no_span σ plain.2] using source
  have rendered : (s.add .rendered (spell bs)).1.rendered =
      s.rendered ++ [⟨s.next, .rendered, Store.restoreCode codes (spell bs)⟩] := by
    rw [Store.rendered, spans_add_spell s _ fun e _ => cleanInside.avoids_entry e, plain.1,
      expand_spell_snd cleanInside plain.1, tracks.code]
    simp [Store.rendered]
  refine ⟨_, tracks.add .markup (holds_self _ _ _), ?_⟩
  rw [rendered]
  refine List.rel_append (forall₂_stands_add tracks stands (by simp [plain.1])) (.cons ?_ .nil)
  have older : ∀ i ∈ spanNumbers done, i ≠ s.next := by
    intro i hi
    exact Nat.ne_of_lt (tracks.lt_next (by simp [hi]))
  refine ⟨rfl, ⟨bs, ?_, ?_⟩, done, todo, by simp, ?_⟩
  · simp [flatMap_source_of_no_span σ plain.1]
  · exact (restoreCode_eq_readBack isCode cleanInside).symm
  · rw [flatMap_source_congr fun i hi => if_neg (older i hi), whole,
      restoreCode_eq_readBack isCode cleanBefore]

/-- The run of the scan: all rendered markup is set aside, and each entry has its place. -/
theorem Cut.renders {previous : Option Char} {ps : List Piece} {bs : List Block}
    (cut : Cut renderedMarkup previous ps bs) (isCode : ∀ code ∈ codes, IsCode code)
    (clean : Clean first) (plain : spanNumbers ps = []) :
    ∀ before s done regions, first = before ++ ps → Renders first codes regions s (done ++ ps) →
      ∃ out,
        (substitute (fun s _ content => s.add .rendered content) s (bs.flatMap Block.segments)).2 =
          spell out ∧
        Renders first codes
          (regions ++ renderedRegions codes (spell before) (bs.flatMap Block.segments))
          (substitute (fun s _ content => s.add .rendered content) s (bs.flatMap Block.segments)).1
          (done ++ out) := by
  induction cut with
  | nil =>
    intro before s done regions _ renders
    exact ⟨[], rfl, by simpa [renderedRegions, substitute] using renders⟩
  | @keep _ p ps bs _ ih =>
    intro before s done regions split renders
    have rest : spanNumbers ps = [] := by
      rw [← List.singleton_append, spanNumbers_append, List.append_eq_nil_iff] at plain
      exact plain.2
    obtain ⟨out, text, kept⟩ :=
      ih rest (before ++ [p]) s (done ++ [p]) regions (by simpa using split) (by simpa using renders)
    rw [List.flatMap_cons, Block.segments, substitute_plain, renderedRegions_plain]
    exact ⟨p :: out, by rw [text, spell_cons], by simpa using kept⟩
  | @found previous ms ps bs content hit _ ih =>
    intro before s done regions split renders
    obtain ⟨rest, text, length⟩ := exists_of_renderedMarkup hit
    have source : spell ms = renderedStart ++ content ++ renderedEnd := (List.append_inj text length).1
    obtain ⟨inner, rfl, rfl⟩ := Delimits.markup.exists_pieces_of_eq source
    simp only [spanNumbers_append, spanNumbers_map_char, List.nil_append, List.append_nil,
      List.append_eq_nil_iff] at plain
    have here : first =
        before ++ (renderedStart.map .char ++ inner ++ renderedEnd.map .char) ++ ps := by
      simpa using split
    have step := Renders.add isCode clean here (by simp [plain]) (by simpa using renders)
    obtain ⟨out, text, kept⟩ := ih plain.2
      (before ++ (renderedStart.map .char ++ inner ++ renderedEnd.map .char)) _ (done ++ [.span s.next]) _ here
      step
    refine ⟨.span s.next :: out, ?_, ?_⟩
    · simp only [List.flatMap_cons, Block.segments, List.singleton_append, substitute, text, spell_cons]
      rfl
    · simpa [Block.segments, substitute, renderedRegions] using kept

/-- Rendered markup is found from left to right. -/
theorem Cut.pairwise_renderedRegions {previous : Option Char} {ps : List Piece} {bs : List Block}
    (cut : Cut renderedMarkup previous ps bs) (isCode : ∀ code ∈ codes, IsCode code) :
    ∀ before, Clean (before ++ ps) →
      (∀ r ∈ renderedRegions codes (spell before) (bs.flatMap Block.segments),
        (readBack codes before).length ≤ r.stretch.start) ∧
      (renderedRegions codes (spell before) (bs.flatMap Block.segments)).Pairwise
        fun r r' => r.stretch.stop ≤ r'.stretch.start := by
  induction cut with
  | nil =>
    intro before _
    simp [renderedRegions]
  | @keep _ p ps bs _ ih =>
    intro before clean
    obtain ⟨later, ordered⟩ := ih (before ++ [p]) (by simpa using clean)
    rw [List.flatMap_cons, Block.segments, renderedRegions_plain]
    simp only [spell_append, spell_cons, spell_nil, List.append_nil, readBack_append,
      List.length_append] at later ordered
    refine ⟨fun r hr => ?_, ordered⟩
    have := later r hr
    omega
  | @found previous ms ps bs content hit _ ih =>
    intro before clean
    obtain ⟨rest, text, length⟩ := exists_of_renderedMarkup hit
    have source : spell ms = renderedStart ++ content ++ renderedEnd := (List.append_inj text length).1
    obtain ⟨inner, rfl, rfl⟩ := Delimits.markup.exists_pieces_of_eq source
    obtain ⟨later, ordered⟩ :=
      ih (before ++ (renderedStart.map .char ++ inner ++ renderedEnd.map .char)) (by simpa using clean)
    have cleanBefore : Clean before := clean.mono (List.prefix_append _ _).isInfix
    have cleanInside : Clean inner :=
      clean.mono ⟨before ++ renderedStart.map .char, renderedEnd.map .char ++ ps, by simp⟩
    rw [spell_append] at later ordered
    simp only [readBack_append, readBack_map_char, List.length_append] at later
    simp only [List.flatMap_cons, Block.segments, List.singleton_append, renderedRegions,
      restoreCode_eq_readBack isCode cleanBefore, restoreCode_eq_readBack isCode cleanInside]
    constructor
    · intro r hr
      rcases List.mem_cons.1 hr with rfl | hr
      · exact Nat.le_refl _
      · have := later r hr
        omega
    · refine List.pairwise_cons.2 ⟨fun r hr => ?_, ordered⟩
      have behind := later r hr
      simp only [RenderedRegion.stretch, RenderedRegion.source, Stretch.behind, List.length_append]
        at behind ⊢
      omega

/-- Setting all rendered markup of a text aside puts each entry in its place. -/
theorem exists_renders_extractRendered (isCode : ∀ code ∈ codes, IsCode code) (clean : Clean first)
    (plain : spanNumbers first = []) (start : Renders first codes [] s first) :
    ∃ out, (s.extractRendered (spell first)).2 = spell out ∧
      Renders first codes (renderedRegions codes [] (segments renderedMarkup (spell first)))
        (s.extractRendered (spell first)).1 out := by
  obtain ⟨bs, cut, found⟩ := exists_cut findsForm_renderedMarkup.bounded none first
  rw [Store.extractRendered, segments, found]
  simpa using cut.renders isCode clean plain [] s [] [] rfl start

theorem pairwise_renderedRegions (isCode : ∀ code ∈ codes, IsCode code) (clean : Clean first) :
    (renderedRegions codes [] (segments renderedMarkup (spell first))).Pairwise
      fun r r' => r.stretch.stop ≤ r'.stretch.start := by
  obtain ⟨bs, cut, found⟩ := exists_cut findsForm_renderedMarkup.bounded none first
  rw [segments, found]
  exact (cut.pairwise_renderedRegions isCode [] clean).2

end Rendered

/-- What is left of a text: a working text that belongs to the store, in which all rendered markup has
its place. -/
theorem exists_renders (soft : SoftParentheses) {t : Text} (fresh : ¬placeholderStart <:+: t) :
    ∃ codes first ps, Stashed (CodeRegion .empty t) t codes first ∧
      Renders first codes (renderedIn t) (protectWith soft .empty t).1 ps ∧
      ((renderedIn t).Pairwise fun r r' => r.stretch.stop ≤ r'.stretch.start) ∧
      (protectWith soft .empty t).2 = readBack codes ps := by
  obtain ⟨codes, first, stashed, code⟩ :=
    exists_code_setAside (s := .empty) (by simp [Store.empty]) fresh
  have regions : renderedIn t = renderedRegions codes [] (segments renderedMarkup (spell first)) := by
    unfold renderedIn
    simp only [code]
  have start : Renders first codes [] { Store.empty with code := codes } first :=
    ⟨_, stashed.tracks .nil (by simp [Store.empty]) (by simp [Store.empty]), .nil⟩
  obtain ⟨out, text, renders⟩ :=
    exists_renders_extractRendered stashed.isCode stashed.clean stashed.spans start
  obtain ⟨ps, text', renders'⟩ := keptByAdd_renders.extractLatex soft _ _ renders
  rw [← text] at text' renders'
  rw [protectWith_eq soft code, extractAll, regions]
  refine ⟨codes, first, ps, stashed, renders', pairwise_renderedRegions stashed.isCode stashed.clean, ?_⟩
  obtain ⟨σ, tracks, _⟩ := renders'
  rw [text', tracks.code, restoreCode_eq_readBack stashed.isCode tracks.clean]

/-! ## The whole text -/

/-- `e` is the entry of the rendered markup `r`, and its word stands in the carrier in place of it. -/
structure IsEntryOf (s : Store) (carrier : Text) (source : Text → Text) (e : Entry)
    (r : RenderedRegion) : Prop where
  content : e.content = r.content
  made : source e.word = r.source
  replaced : ReplacedAt (s.spans.map Entry.word) source carrier r.before e.word
  once : Text.occurrences e.word carrier = 1

/-- The store keeps all rendered markup of a text; `source` tells, for each word that stands for a
formula, the text that it was made from. -/
structure KeepsRendered (s : Store) (carrier t : Text) (source : Text → Text) : Prop where
  /-- With the sources in place of the words the text is whole again. -/
  text : replaceWords (s.spans.map Entry.word) source carrier = t
  placed : ∀ e ∈ s.spans, ∃ before, ReplacedAt (s.spans.map Entry.word) source carrier before e.word
  /-- Rendered markup is text as it was written. -/
  regions : ∀ r ∈ renderedIn t, r.before ++ r.source <+: t
  ordered : (renderedIn t).Pairwise fun r r' => r.stretch.stop ≤ r'.stretch.start
  /-- There is one entry for each, and there are no others. -/
  entries : List.Forall₂ (IsEntryOf s carrier source) s.rendered (renderedIn t)
  /-- No other formula was made from text that has rendered markup in it. -/
  apart : ∀ e ∈ s.spans, e.kind ≠ .rendered →
    ∀ before, ReplacedAt (s.spans.map Entry.word) source carrier before e.word →
      ∀ r ∈ renderedIn t, r.stretch.Outside (.behind before (source e.word))

theorem exists_of_mem_right {α β : Type} {R : α → β → Prop} {as : List α} {bs : List β}
    (h : List.Forall₂ R as bs) {b : β} (hb : b ∈ bs) : ∃ a ∈ as, R a b := by
  induction h with
  | nil => simp at hb
  | @cons a b' as bs first _ ih =>
    rcases List.mem_cons.1 hb with rfl | hb
    · exact ⟨a, List.mem_cons_self, first⟩
    · obtain ⟨a', mem, rel⟩ := ih hb
      exact ⟨a', List.mem_cons_of_mem _ mem, rel⟩

/-- Two placeholders stand for stretches of the text that do not overlap. -/
theorem outside_of_ne (codes : List Text) (σ : Nat → List Piece) {us vs us' vs' : List Piece} {i j : Nat}
    (h : us ++ .span i :: vs = us' ++ .span j :: vs') (ne : i ≠ j) :
    (Stretch.behind (readBack codes (us.flatMap (Piece.source σ))) (readBack codes (σ i))).Outside
      (.behind (readBack codes (us'.flatMap (Piece.source σ))) (readBack codes (σ j))) := by
  unfold Stretch.Outside Stretch.behind
  rcases List.append_eq_append_iff.1 h with ⟨ws, rfl, rest⟩ | ⟨ws, rfl, rest⟩
  · left
    cases ws with
    | nil => simp [ne] at rest
    | cons w ws =>
      rw [List.cons_append, List.cons.injEq] at rest
      rw [← rest.1, List.flatMap_append, List.flatMap_cons, readBack_append, readBack_append]
      simp only [List.length_append, Piece.source]
      omega
  · right
    cases ws with
    | nil => simp [ne.symm] at rest
    | cons w ws =>
      rw [List.cons_append, List.cons.injEq] at rest
      rw [← rest.1, List.flatMap_append, List.flatMap_cons, readBack_append, readBack_append]
      simp only [List.length_append, Piece.source]
      omega

/-- Rendered markup is never lost and never taken in by a formula around it. -/
theorem protectWith_keeps_rendered (soft : SoftParentheses) {t : Text}
    (fresh : ¬placeholderStart <:+: t) :
    ∃ source, KeepsRendered (protectWith soft .empty t).1 (protectWith soft .empty t).2 t source := by
  obtain ⟨codes, first, ps, stashed, ⟨σ, tracks, stands⟩, ordered, carrier⟩ := exists_renders soft fresh
  obtain ⟨source, sources⟩ := exists_source fun i => readBack codes (σ i)
  rw [carrier]
  generalize (protectWith soft .empty t).1 = s at tracks stands
  have made {e : Entry} {r : RenderedRegion} (stands : Stands codes σ ps e r) :
      readBack codes (σ e.index) = r.source := by
    obtain ⟨inner, shape, content⟩ := stands.made
    rw [shape, RenderedRegion.source, ← content]
    simp
  refine ⟨source, replaceWords_readBack stashed tracks sources, ?placed, ?regions, ordered, ?entries,
    ?apart⟩
  case placed =>
    intro e he
    have here : e.index ∈ spanNumbers ps := tracks.numbers.mem_iff.1 (List.mem_map_of_mem he)
    obtain ⟨us, vs, split⟩ := List.append_of_mem (mem_spanNumbers.1 here)
    exact ⟨_, (replacedAt_iff stashed tracks sources).2 ⟨us, e.index, vs, split, rfl, rfl⟩⟩
  case regions =>
    intro r hr
    obtain ⟨e, _, stands⟩ := exists_of_mem_right stands hr
    obtain ⟨us, vs, split, before⟩ := stands.place
    refine ⟨readBack codes (vs.flatMap (Piece.source σ)), ?_⟩
    rw [← before, ← made stands, ← stashed.text, ← tracks.source, split]
    simp [Piece.source]
  case entries =>
    refine stands.imp fun e r stands => ?_
    obtain ⟨us, vs, split, before⟩ := stands.place
    refine ⟨stands.content, (sources _).trans (made stands), ?_, ?_⟩
    · exact (replacedAt_iff stashed tracks sources).2 ⟨us, e.index, vs, split, rfl, before.symm⟩
    · have nodup : (spanNumbers ps).Nodup := tracks.nodup
      have mem : e.index ∈ spanNumbers ps := by simp [split]
      rw [Entry.word, readBack,
        occurrences_placeholder_spell _ (clean_flatMap_restored stashed.isCode tracks.clean),
        spanNumbers_flatMap_restored, nodup.count, if_pos mem]
  case apart =>
    intro e he latex before replaced r hr
    obtain ⟨us, i, vs, split, word, rfl⟩ := (replacedAt_iff stashed tracks sources).1 replaced
    obtain rfl : e.index = i := placeholder_injective word
    obtain ⟨e', he', stands⟩ := exists_of_mem_right stands hr
    obtain ⟨mem, rendered⟩ := Store.mem_rendered.1 he'
    have ne : e'.index ≠ e.index := by
      intro same
      rw [eq_of_index_eq tracks.sorted mem he same] at rendered
      exact latex rendered
    obtain ⟨us', vs', split', before⟩ := stands.place
    have apart := outside_of_ne codes σ (split'.symm.trans split) ne
    rwa [before, made stands, ← sources] at apart

theorem protectWith_keeps_rendered_inDollars :
    ¬placeholderStart <:+:
        "$x + <!--RENDERED_MATH_START-->`a$`<!--RENDERED_MATH_END-->$ (y_1)".toList ∧
      (renderedIn "$x + <!--RENDERED_MATH_START-->`a$`<!--RENDERED_MATH_END-->$ (y_1)".toList).map
        RenderedRegion.content = ["`a$`".toList] ∧
      ∃ source, KeepsRendered
        (protectWith ⟨true, looksLikeMath⟩ .empty
          "$x + <!--RENDERED_MATH_START-->`a$`<!--RENDERED_MATH_END-->$ (y_1)".toList).1
        (protectWith ⟨true, looksLikeMath⟩ .empty
          "$x + <!--RENDERED_MATH_START-->`a$`<!--RENDERED_MATH_END-->$ (y_1)".toList).2
        "$x + <!--RENDERED_MATH_START-->`a$`<!--RENDERED_MATH_END-->$ (y_1)".toList source := by
  have fresh : ¬placeholderStart <:+:
      "$x + <!--RENDERED_MATH_START-->`a$`<!--RENDERED_MATH_END-->$ (y_1)".toList := by
    rw [← Text.contains_iff_infix]
    decide
  exact ⟨fresh, by decide +kernel, protectWith_keeps_rendered _ fresh⟩

end OfficeFormula.Span
