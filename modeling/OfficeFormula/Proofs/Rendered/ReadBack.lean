import OfficeFormula.Proofs.Markup.PlainText
import OfficeFormula.Proofs.Rendered.Container

/-!
# Pages without formulas

Nothing is replaced on a page without formulas, so what is pasted is the page as it is written
(`value_convertPage`). The text that a page begins with is written as it is and all other text is
escaped. So a page that can be read is read back as it was where that text is plain
(`readFragment_convertPage`). Where it is not, what was text may be read back as an element
(`readFragment_convertPage_live`).
-/

namespace OfficeFormula.Rendered

open Markup (Node escape)
open Markup.Html (Element elementsIn elementsInAll dropElements dropElementsAll readFragment isPlainText
  render render_text renderAll renderContent)

/-! ## Pages as they are written -/

mutual

theorem dropElements_eq_self {names : List String} :
    (n : Node) → (∀ e ∈ elementsIn n, e.name ∉ names) → dropElements names n = [n]
  | .element name attrs children, h => by
    rw [elementsIn, List.forall_mem_cons] at h
    have kept : names.contains name = false := by simpa using h.1
    rw [dropElements, kept, dropElementsAll_eq_self children h.2]
    rfl
  | .text t, _ => by rw [dropElements]
  | .comment t, _ => by rw [dropElements]

theorem dropElementsAll_eq_self {names : List String} :
    (ns : List Node) → (∀ e ∈ elementsInAll ns, e.name ∉ names) → dropElementsAll names ns = ns
  | [], _ => by rw [dropElementsAll]
  | n :: ns, h => by
    rw [elementsInAll, List.forall_mem_append] at h
    rw [dropElementsAll, dropElements_eq_self n h.1, dropElementsAll_eq_self ns h.2]
    rfl

end

theorem foldl_setAsideAll_eq_self {ns : List Node} {cs : List Container}
    (h : ∀ c ∈ cs, ∀ e ∈ elementsInAll ns, c.holds e = false) :
    cs.foldl (fun s c => setAsideAll c s.1 s.2) ([], ns) = ([], ns) := by
  induction cs with
  | nil => rfl
  | cons c cs ih =>
    rw [List.forall_mem_cons] at h
    rw [List.foldl_cons, setAsideAll_eq_self ns h.1]
    exact ih h.2

theorem setAsideContainers_eq_self {ns : List Node} (h : ∀ e ∈ elementsInAll ns, isContainer e = false) :
    setAsideContainers ns = ([], ns) := by
  refine foldl_setAsideAll_eq_self fun c known e he => Bool.eq_false_iff.2 fun holds => ?_
  exact absurd (isContainer_of_holds known holds) (by simp [h e he])

/-- What is pasted for a page without formulas is the page as it is written. -/
theorem value_convertPage (settings : Settings) {markup : Text} {ns : List Node} (read : readFragment markup = .ok ns)
    (bare : ∀ e ∈ elementsInAll ns, isContainer e = false ∧ e.name ∉ removedElements) :
    (convertPage settings markup).run.value = .ok (renderContent ns) := by
  have kept := dropElementsAll_eq_self _ fun e he => (bare e he).2
  have found := setAsideContainers_eq_self fun e he => (bare e he).1
  have page : (convertPage settings markup).run.value = .ok (convertNodes settings ns).value := by
    rw [convertPage, read]
    rfl
  rw [page, convertNodes, kept, found]
  rfl

/-! ## The text at the head of a page -/

/-- The text that a page begins with. -/
def leadingText : List Node → Text
  | .text t :: ns => t ++ leadingText ns
  | _ => []

/-- The two ways to write a page differ in the text at its head, and a tag follows that. -/
theorem exists_renderContent (ns : List Node) :
    ∃ rest, renderContent ns = leadingText ns ++ rest ∧ renderAll false ns = escape (leadingText ns) ++ rest ∧
      ∀ c ∈ rest.head?, c = '<' := by
  induction ns with
  | nil => exact ⟨[], rfl, rfl, by simp⟩
  | cons n ns ih =>
    cases n with
    | text t =>
      obtain ⟨rest, content, all, tag⟩ := ih
      refine ⟨rest, ?_, ?_, tag⟩
      · rw [renderContent, content, leadingText, List.append_assoc]
      · rw [renderAll, render_text, all, leadingText]
        simp [escape]
    | element name attrs children =>
      refine ⟨renderAll false (.element name attrs children :: ns), rfl, rfl, ?_⟩
      rw [renderAll, render]
      split <;> simp
    | comment t => exact ⟨renderAll false (.comment t :: ns), rfl, rfl, by simp [renderAll]⟩

/-- A page without formulas and without elements that are not for pasting is read back as it was, if the text at
its head is plain and its nodes can be read back at all. -/
theorem readFragment_convertPage (settings : Settings) {markup : Text} {ns : List Node}
    (read : readFragment markup = .ok ns)
    (bare : ∀ e ∈ elementsInAll ns, isContainer e = false ∧ e.name ∉ removedElements)
    (inverse : readFragment (renderAll false ns) = .ok ns) (plain : isPlainText (leadingText ns) = true) :
    ∃ pasted, (convertPage settings markup).run.value = .ok pasted ∧ readFragment pasted = .ok ns := by
  obtain ⟨rest, content, all, tag⟩ := exists_renderContent ns
  refine ⟨renderContent ns, value_convertPage settings read bare, ?_⟩
  rw [content, ← Markup.Html.readFragment_escape plain tag, ← all, inverse]

/-- A page with escaped characters at its head, in an element and in an attribute. -/
def escapedPage : Text := "1 &lt; 2 & 3 <b title=\"p&amp;q\">&lt;i&gt;</b>".toList

/-- The nodes of that page. -/
def escapedNodes : List Node := [
  .text "1 < 2 & 3 ".toList, .element "b" [("title", some "p&q".toList)] [.text "<i>".toList]]

theorem readFragment_escapedPage : readFragment escapedPage = .ok escapedNodes := by
  with_unfolding_all rfl

theorem readFragment_renderAll_escapedNodes : readFragment (renderAll false escapedNodes) = .ok escapedNodes := by
  with_unfolding_all rfl

theorem readFragment_convertPage_escapedPage :
    readFragment escapedPage = .ok escapedNodes ∧
      (∀ e ∈ elementsInAll escapedNodes, isContainer e = false ∧ e.name ∉ removedElements) ∧
      readFragment (renderAll false escapedNodes) = .ok escapedNodes ∧
      isPlainText (leadingText escapedNodes) = true ∧
      ∀ settings, ∃ pasted, (convertPage settings escapedPage).run.value = .ok pasted ∧
        readFragment pasted = .ok escapedNodes := by
  have bare : ∀ e ∈ elementsInAll escapedNodes, isContainer e = false ∧ e.name ∉ removedElements := by
    have all : (elementsInAll escapedNodes).all
        (fun e => !isContainer e && !removedElements.contains e.name) = true := by decide +kernel
    exact fun e he => by simpa using List.all_eq_true.1 all e he
  have plain : isPlainText (leadingText escapedNodes) = true := by decide +kernel
  exact ⟨readFragment_escapedPage, bare, readFragment_renderAll_escapedNodes, plain, fun settings =>
    readFragment_convertPage settings readFragment_escapedPage bare readFragment_renderAll_escapedNodes plain⟩

/-- A page of text that looks like an element. -/
def quotedTag : Text := "a &lt;b&gt;c&lt;/b&gt;".toList

/-- At the head of a page, text that looks like an element is an element of what is pasted. -/
theorem readFragment_convertPage_live :
    (elementsOf quotedTag).map (·.name) = [] ∧
      ∀ settings, ∃ pasted, (convertPage settings quotedTag).run.value = .ok pasted ∧
        (elementsOf pasted).map (·.name) = ["b"] := by
  have read : readFragment quotedTag = .ok [.text "a <b>c</b>".toList] := by with_unfolding_all rfl
  refine ⟨by decide +kernel, fun settings => ⟨_, value_convertPage settings read ?_, by decide +kernel⟩⟩
  simp [elementsInAll, elementsIn]

end OfficeFormula.Rendered
