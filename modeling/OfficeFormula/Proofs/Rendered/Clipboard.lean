import OfficeFormula.Proofs.Clipboard
import OfficeFormula.Proofs.Rendered.Container
import OfficeFormula.Proofs.Span.Simultaneous

/-!
# Formulas of a page

What is pasted for a page is the page as it is written, with a wrapper in place of each outermost
container and nothing else changed (`convertNodes_pastes`). The wrapper holds what the container by itself
is converted to. On the way the placeholder of a container stands in its wrapper. Tags divide the written
page, so no placeholder is found but those of the wrappers (`Woven`).
-/

namespace OfficeFormula.Rendered

open Markup (Attr Node escape)
open Markup.Html (Element render renderAll renderContent renderAttr voidElements rawElements dropElementsAll)
open OfficeFormula.Span (Piece spell spanNumbers Clean placeholder placeholderStart)

/-! ## Pages with something in place of elements -/

mutual

/-- The written form of a node, with `shown e` in place of each outermost element `e` that has one. -/
def renderWith (shown : Element → Option Text) (raw : Bool) : Node → Text
  | .element name attrs children =>
    match shown ⟨name, attrs, children⟩ with
    | some t => t
    | none =>
      let start := '<' :: name.toList ++ attrs.flatMap (renderAttr name) ++ ['>']
      if voidElements.contains name then start
      else start ++ renderAllWith shown (rawElements.contains name) children
        ++ "</".toList ++ name.toList ++ ['>']
  | .text t => if raw then t else escape t
  | .comment t => "<!--".toList ++ t ++ "-->".toList

def renderAllWith (shown : Element → Option Text) (raw : Bool) : List Node → Text
  | [] => []
  | n :: ns => renderWith shown raw n ++ renderAllWith shown raw ns

end

/-- The written form of a page with something in place of elements. -/
def renderContentWith (shown : Element → Option Text) : List Node → Text
  | .text t :: ns => t ++ renderContentWith shown ns
  | ns => renderAllWith shown false ns

/-- A text in place of each container, and of no other element. -/
def atContainers (f : Element → Text) (e : Element) : Option Text :=
  if isContainer e then some (f e) else none

/-- What a container by itself is converted to. -/
def converted (settings : Settings) (e : Element) : Text :=
  (compileForClipboard settings (render false e.node)).value

/-- The tag of the wrapper of a container. -/
def wrapperTag (e : Element) : Text := if isDisplayContainer e then "div".toList else "span".toList

/-- A text between the tags of a wrapper. -/
def wrapped (e : Element) (t : Text) : Text :=
  '<' :: wrapperTag e ++ ['>'] ++ t ++ "</".toList ++ wrapperTag e ++ ['>']

/-- What is pasted for a container. -/
def pasted (settings : Settings) (e : Element) : Text := wrapped e (converted settings e)

/-! ## Woven texts -/

/-- The text `inside` is `before` with placeholders in place of some parts, and `after` is it with `f i` in
place of the placeholder `i`. The numbers are below `count`, and in a page where nothing looks like a
placeholder no others come about. -/
def Woven (count : Nat) (f : Nat → Text) (before inside after : Text) : Prop :=
  ∃ ps : List Piece, spell ps = inside ∧ ps.flatMap (Piece.filled f) = after ∧
    (∀ p ∈ ps, (∃ c, p = .char c) ∨ ∃ i, i < count ∧ p = .span i) ∧
    ∀ us vs, Clean (us ++ before.map .char ++ vs) → Clean (us ++ ps ++ vs)

namespace Woven

variable {count : Nat} {f : Nat → Text}

theorem same (t : Text) : Woven count f t t t := by
  refine ⟨t.map .char, by simp, ?_, ?_, fun _ _ clean => clean⟩
  · rw [List.flatMap_map]
    exact List.flatMap_singleton' t
  · intro p hp
    obtain ⟨c, _, rfl⟩ := List.mem_map.1 hp
    exact .inl ⟨c, rfl⟩

/-- Woven texts can be put behind one another. -/
theorem append {before inside after before' inside' after' : Text} (h : Woven count f before inside after)
    (h' : Woven count f before' inside' after') :
    Woven count f (before ++ before') (inside ++ inside') (after ++ after') := by
  obtain ⟨ps, spelled, filled, pieces, clean⟩ := h
  obtain ⟨qs, spelled', filled', pieces', clean'⟩ := h'
  refine ⟨ps ++ qs, by simp [spelled, spelled'], by simp [filled, filled'], ?_, ?_⟩
  · rw [List.forall_mem_append]
    exact ⟨pieces, pieces'⟩
  · intro us vs h
    rw [List.map_append, ← List.append_assoc us] at h
    rw [← List.append_assoc us]
    apply clean'
    rw [List.append_assoc]
    apply clean
    rwa [← List.append_assoc]

/-- Anything may be replaced by a placeholder in a wrapper. -/
theorem wrapper {i : Nat} (known : i < count) (markup : Text) (e : Element) :
    Woven count f markup (wrapped e (placeholder i)) (wrapped e (f i)) := by
  have mark {c : Char} (h : Span.isMark c = true) {qs : List Piece} : Clean (.char c :: qs) ↔ Clean qs := by
    have split : Clean ([] ++ .char c :: qs) ↔ Clean [] ∧ Clean qs :=
      Span.clean_append_cons (Span.char_not_mem_start h)
    exact split.trans (and_iff_right (by simp [Clean, Span.placeholderStart_eq]))
  have word {qs : List Piece} : Clean (.span i :: qs) ↔ Clean qs := by
    have split : Clean ([] ++ .span i :: qs) ↔ Clean [] ∧ Clean qs :=
      Span.clean_append_cons (Span.word_not_mem_start rfl)
    exact split.trans (and_iff_right (by simp [Clean, Span.placeholderStart_eq]))
  have tag : Clean ((wrapperTag e).map .char) := by
    rw [Span.clean_map_char, ← Text.contains_iff_infix, wrapperTag]
    split <;> decide
  refine ⟨('<' :: wrapperTag e ++ ['>']).map .char ++ .span i :: ("</".toList ++ wrapperTag e ++ ['>']).map .char,
    ?_, ?_, ?_, ?_⟩
  · simp [wrapped, Piece.text]
  · simp [wrapped, Piece.filled, Piece.text, List.flatMap_map]
  · intro p hp
    simp only [List.mem_append, List.mem_map, List.mem_cons] at hp
    rcases hp with ⟨c, _, rfl⟩ | rfl | ⟨c, _, rfl⟩
    · exact .inl ⟨c, rfl⟩
    · exact .inr ⟨i, known, rfl⟩
    · exact .inl ⟨c, rfl⟩
  · intro us vs clean
    have before : Clean us := clean.mono ⟨[], markup.map .char ++ vs, by simp⟩
    have after : Clean vs := clean.mono ⟨us ++ markup.map .char, [], by simp⟩
    have marks {c : Char} (h : Span.isMark c = true) := Span.char_not_mem_start h
    have text : us ++ (('<' :: wrapperTag e ++ ['>']).map .char ++
          .span i :: ("</".toList ++ wrapperTag e ++ ['>']).map .char) ++ vs =
        us ++ .char '<' :: ((wrapperTag e).map .char ++ .char '>' :: .span i :: .char '<' :: .char '/' ::
          ((wrapperTag e).map .char ++ .char '>' :: vs)) := by
      simp
    rw [text, Span.clean_append_cons (marks (by decide)), Span.clean_append_cons (marks (by decide)), word,
      mark (by decide), mark (by decide), Span.clean_append_cons (marks (by decide))]
    exact ⟨before, tag, tag, after⟩

end Woven

theorem escape_placeholder (i : Nat) : escape (placeholder i) = placeholder i := by
  have marks : ∀ c ∈ ['&', '<', '>'], Span.isMark c = true := List.all_eq_true.1 (by decide)
  exact Markup.escape_eq_self fun c reserved => Span.not_mem_placeholder_of_isMark (marks c reserved) i

/-- A wrapper is written around its placeholder, in raw text too. -/
theorem render_wrapper (raw : Bool) (e : Element) (i : Nat) :
    render raw (wrapper e (placeholder i)) = wrapped e (placeholder i) := by
  rw [wrapper, wrapped, wrapperTag]
  split
  · simp [render, renderAll, escape_placeholder, voidElements, rawElements]
  · simp [render, renderAll, escape_placeholder, voidElements, rawElements]

/-! ## From placeholders to formulas -/

section Page

variable (settings : Settings) {found : List Element}

mutual

theorem Marked.woven {n n' : Node} (raw : Bool) : Marked Container.all found n n' →
    Woven found.length (fun i => (found.map (converted settings)).getD i []) (render raw n) (render raw n')
      (renderWith (atContainers (pasted settings)) raw n)
  | @Marked.replaced _ _ name attrs cs i container early number => by
    have known := (List.getElem?_eq_some_iff.1 number).1
    have result : (found.map (converted settings)).getD i [] = converted settings ⟨name, attrs, cs⟩ := by
      simp [List.getD, number]
    have shown : renderWith (atContainers (pasted settings)) raw (.element name attrs cs) =
        wrapped ⟨name, attrs, cs⟩ ((found.map (converted settings)).getD i []) := by
      rw [result]
      simp [renderWith, atContainers, container, pasted]
    rw [render_wrapper, shown]
    exact .wrapper known _ _
  | @Marked.kept _ _ name attrs cs container late => by
    simp [isContainer, late] at container
  | @Marked.element _ _ name attrs cs cs' other inside => by
    simp only [render, renderWith, atContainers, other]
    split
    · exact .same _
    · have content := inside.woven (rawElements.contains name)
      exact ((((Woven.same _).append content).append (.same _)).append (.same _)).append (.same _)
  | .text t => by
    simp only [render, renderWith]
    exact .same _
  | .comment t => by
    simp only [render, renderWith]
    exact .same _

theorem MarkedAll.woven {ns ns' : List Node} (raw : Bool) : MarkedAll Container.all found ns ns' →
    Woven found.length (fun i => (found.map (converted settings)).getD i []) (renderAll raw ns)
      (renderAll raw ns') (renderAllWith (atContainers (pasted settings)) raw ns)
  | .nil => by
    simp only [renderAll, renderAllWith]
    exact .same _
  | .cons head tail => by
    simp only [renderAll, renderAllWith]
    exact (head.woven raw).append (tail.woven raw)

end

/-- A page is woven from its containers. -/
theorem MarkedAll.woven_content {ns ns' : List Node} (marked : MarkedAll Container.all found ns ns') :
    Woven found.length (fun i => (found.map (converted settings)).getD i []) (renderContent ns)
      (renderContent ns') (renderContentWith (atContainers (pasted settings)) ns) := by
  induction ns generalizing ns' with
  | nil =>
    cases marked
    exact .same []
  | cons n ns ih =>
    cases marked with
    | cons head tail =>
      have all := (MarkedAll.cons head tail).woven settings false
      cases head with
      | text t => exact (Woven.same t).append (ih tail)
      | comment t => exact all
      | element other inside => exact all
      | kept container late => exact all
      | replaced container early number => exact all

end Page

/-! ## What is pasted for a page -/

theorem value_mapM {α β : Type} (f : α → Report.Reported β) (xs : List α) :
    (xs.mapM f).value = xs.map fun a => (f a).value := by
  have loop (done : List β) : (List.mapM.loop f xs done).value = done.reverse ++ xs.map fun a => (f a).value := by
    induction xs generalizing done with
    | nil => exact (List.append_nil _).symm
    | cons a as ih =>
      change (List.mapM.loop f as ((f a).value :: done)).value = _
      rw [ih]
      simp
  exact loop []

theorem replacements_eq (results : List Text) :
    replacements results =
      (List.range results.length).map fun i => (placeholder i, results.getD i []) := by
  apply List.ext_getElem
  · simp [replacements]
  · intro i h h'
    simp only [replacements, List.length_map, List.length_zipIdx] at h
    simp [replacements, List.getD, h]

/-- Results that have no placeholders are put back all at once. -/
theorem restore_replacements {results : List Text} (enclosed : ∀ r ∈ results, Span.Enclosed r)
    (fresh : ∀ r ∈ results, ∀ i, ¬placeholder i <:+: r) {ps : List Piece} (clean : Clean ps)
    (known : ∀ i ∈ spanNumbers ps, i < results.length) :
    Span.restore (replacements results) (spell ps) = ps.flatMap (Piece.filled fun i => results.getD i []) := by
  obtain ⟨resolver, source⟩ := Span.exists_source fun i => results.getD i []
  let spans : List Span.Entry := (List.range results.length).map fun i => ⟨i, .rendered, []⟩
  have result : ∀ e ∈ spans, resolver e.word ∈ results := by
    intro e he
    obtain ⟨i, hi, rfl⟩ := List.mem_map.1 he
    have bound := List.mem_range.1 hi
    rw [Span.Entry.word, source, List.getD, List.getElem?_eq_getElem bound]
    exact List.getElem_mem bound
  have same : replacements results = Span.resolved resolver spans := by
    rw [replacements_eq, Span.resolved, List.map_map]
    apply List.map_congr_left
    intro i _
    simp [Span.Entry.word, source]
  have numbers : spans.map Span.Entry.index = List.range results.length := by
    rw [List.map_map]
    exact List.map_id _
  rw [same, Span.restore_resolved (fun e he => enclosed _ (result e he))
    (fun e he f _ => fresh _ (result e he) f.index), numbers,
    Span.replaceWords_spell clean (by simpa using known)]
  simp only [source]

/-- A page with placeholders for results becomes the page with the results, and no placeholder is left. -/
theorem Woven.restore {results : List Text} {before inside after : Text}
    (woven : Woven results.length (fun i => results.getD i []) before inside after)
    (unmarked : ¬placeholderStart <:+: before) (enclosed : ∀ r ∈ results, Span.Enclosed r)
    (fresh : ∀ r ∈ results, ∀ i, ¬placeholder i <:+: r) :
    Span.restore (replacements results) inside = after ∧ ∀ i, ¬placeholder i <:+: after := by
  obtain ⟨ps, rfl, rfl, pieces, cleaned⟩ := woven
  have clean : Clean ps := by
    simpa using cleaned [] [] (by simpa using Span.clean_map_char.2 unmarked)
  have known : ∀ i ∈ spanNumbers ps, i < results.length := by
    intro i hi
    rcases pieces _ (Span.mem_spanNumbers.1 hi) with ⟨c, h⟩ | ⟨j, hj, h⟩
    · simp at h
    · simp only [Piece.span.injEq] at h
      exact h ▸ hj
  have member : ∀ i ∈ spanNumbers ps, results.getD i [] ∈ results := by
    intro i hi
    rw [List.getD, List.getElem?_eq_getElem (known i hi)]
    exact List.getElem_mem (known i hi)
  have plain : ∀ i, .code i ∉ ps := by
    intro i hi
    rcases pieces _ hi with ⟨c, h⟩ | ⟨j, _, h⟩
    · simp at h
    · simp at h
  refine ⟨restore_replacements enclosed fresh clean known, ?_⟩
  exact Span.not_infix_filled clean plain (fun i hi => enclosed _ (member i hi)) fun i hi => fresh _ (member i hi)

theorem enclosed_template (display : Bool) (inner : Text) : Span.Enclosed (Omml.template display inner) := by
  have ends (a : Text) {b : Text} (h : b.getLast? = some '>') : (a ++ b).getLast? = some '>' := by
    rw [List.getLast?_append, h]
    rfl
  cases display with
  | true => exact ⟨rfl, ends _ (by decide)⟩
  | false =>
    rw [Omml.template, if_neg (by decide), Omml.formulaElement]
    split
    · exact ⟨rfl, ends _ (by decide)⟩
    · exact ⟨rfl, ends _ (by decide)⟩

theorem enclosed_converted (settings : Settings) (e : Element) : Span.Enclosed (converted settings e) := by
  rw [converted, (pasted_compileForClipboard settings (render false e.node)).text]
  exact enclosed_template _ _

mutual

/-- With its own markup in place of each container a node is written as it is. -/
theorem renderWith_render (raw : Bool) :
    (n : Node) → renderWith (atContainers fun e => render false e.node) raw n = render raw n
  | .element name attrs cs => by
    rw [renderWith, render, atContainers]
    split
    · next shown =>
      split at shown
      · rw [← Option.some.inj shown, Element.node, render]
      · simp at shown
    · rw [renderAllWith_render]
  | .text t => by rw [renderWith, Markup.Html.render_text]
  | .comment t => by rw [renderWith, Markup.Html.render_comment]

theorem renderAllWith_render (raw : Bool) :
    (ns : List Node) → renderAllWith (atContainers fun e => render false e.node) raw ns = renderAll raw ns
  | [] => by rw [renderAllWith, renderAll]
  | n :: ns => by rw [renderAllWith, renderAll, renderWith_render, renderAllWith_render]

end

theorem renderContentWith_render (ns : List Node) :
    renderContentWith (atContainers fun e => render false e.node) ns = renderContent ns := by
  induction ns with
  | nil => rfl
  | cons n ns ih =>
    cases n with
    | text t => rw [renderContentWith, renderContent, ih]
    | element name attrs cs => exact renderAllWith_render false _
    | comment t => exact renderAllWith_render false _

theorem value_convertNodes (settings : Settings) (ns : List Node) :
    let s := setAsideContainers (dropElementsAll removedElements ns)
    (convertNodes settings ns).value =
      Span.restore (replacements (s.1.map (converted settings))) (renderContent s.2) := by
  rw [convertNodes]
  generalize setAsideContainers (dropElementsAll removedElements ns) = s
  intro s
  have results := value_mapM (fun e : Element => compileForClipboard settings (render false e.node)) s.1
  exact congrArg (fun rs => Span.restore (replacements rs) (renderContent s.2)) results

/-- What is pasted for a page is the page as it is written, with the wrapper of each outermost container in
its place. Each of them is converted once, and no placeholder is left. -/
theorem convertNodes_pastes (settings : Settings) (ns : List Node)
    (unmarked : ¬placeholderStart <:+: renderContent (dropElementsAll removedElements ns))
    (ordered : ∀ e ∈ outermostAll (dropElementsAll removedElements ns), isOrdered e = true)
    (fresh : ∀ e ∈ outermostAll (dropElementsAll removedElements ns), ∀ i,
      ¬placeholder i <:+: converted settings e) :
    let page := dropElementsAll removedElements ns
    let result := (convertNodes settings ns).value
    renderContent page = renderContentWith (atContainers fun e => render false e.node) page ∧
      result = renderContentWith (atContainers (pasted settings)) page ∧
      (setAsideContainers page).1.Perm (outermostAll page) ∧ ∀ i, ¬placeholder i <:+: result := by
  intro page result
  have spec := setAside_setAsideContainers ordered
  have formulas : (setAsideContainers page).1.Perm (outermostAll page) := by
    have all : (outermostAll page).filter (fun e => Container.all.any (·.holds e)) = outermostAll page :=
      List.filter_eq_self.2 (isContainer_of_mem_outermostAll page)
    exact all ▸ spec.found
  have origin (P : Text → Prop) (h : ∀ e ∈ outermostAll page, P (converted settings e)) :
      ∀ r ∈ (setAsideContainers page).1.map (converted settings), P r := by
    intro r hr
    obtain ⟨e, he, rfl⟩ := List.mem_map.1 hr
    exact h e (formulas.mem_iff.1 he)
  have enclosed := origin Span.Enclosed fun e _ => enclosed_converted settings e
  have fresh := origin (fun t => ∀ i, ¬placeholder i <:+: t) fresh
  have woven := spec.marked.woven_content settings
  rw [← List.length_map (converted settings)] at woven
  obtain ⟨restored, free⟩ := woven.restore unmarked enclosed fresh
  have value : result = _ := (value_convertNodes settings ns).trans restored
  exact ⟨(renderContentWith_render page).symm, value, formulas, value ▸ free⟩

/-- An element with one class. -/
def classed (name word : String) (children : List Node) : Node :=
  .element name [("class", some word.toList)] children

/-- A page with formulas of two kinds, each with another container in it, and an element that is removed. -/
def mixedPage : List Node := [
  .text "If ".toList,
  .element "p" [] [
    classed "div" "katex-display" [classed "span" "katex" [.text ['x']]],
    .text " & ".toList],
  .element "script" [] [.text (placeholder 0)],
  .element "mjx-container" [] [.element "mjx-container" [] [.text ['2']]]]

def nativeSettings : Settings := ⟨true, .native, false, .tireless⟩

theorem convertNodes_pastes_mixedPage :
    let page := dropElementsAll removedElements mixedPage
    ¬placeholderStart <:+: renderContent page ∧ (∀ e ∈ outermostAll page, isOrdered e = true) ∧
      (∀ e ∈ outermostAll page, ∀ i, ¬placeholder i <:+: converted nativeSettings e) ∧
      (convertNodes nativeSettings mixedPage).value = renderContentWith (atContainers (pasted nativeSettings)) page ∧
      (setAsideContainers page).1.Perm (outermostAll page) := by
  intro page
  have unmarked : ¬placeholderStart <:+: renderContent page := by
    rw [← Text.contains_iff_infix]
    decide +kernel
  have ordered : ∀ e ∈ outermostAll page, isOrdered e = true := by
    rw [← List.all_eq_true]
    decide +kernel
  have fresh : ∀ e ∈ outermostAll page, ∀ i, ¬placeholder i <:+: converted nativeSettings e := by
    have start : (outermostAll page).all (fun e => !Text.contains placeholderStart (converted nativeSettings e)) =
        true := by
      decide +kernel
    intro e he i h
    have free := List.all_eq_true.1 start e he
    rw [Text.contains_iff_infix.2 ((Span.placeholderStart_prefix_placeholder i).isInfix.trans h)] at free
    simp at free
  obtain ⟨_, value, formulas, _⟩ := convertNodes_pastes nativeSettings mixedPage unmarked ordered fresh
  exact ⟨unmarked, ordered, fresh, value, formulas⟩

end OfficeFormula.Rendered
