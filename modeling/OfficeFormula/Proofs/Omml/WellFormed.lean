import OfficeFormula.Omml.Wrapper
import OfficeFormula.Proofs.Markup.WellFormed

/-!
# Well-formed formulas

Whether the written form of a tree is well formed does not depend on its texts, as long as their
characters may stand in a document: what markup reserves is written as references. It depends on the
names, whose labels must be declared around the formula (`Node.Lawful`). The template declares the label
of the formula namespace, so what it makes of lawful nodes is well formed (`wellFormed_template`).
-/

namespace OfficeFormula.Omml

open Markup.Xml (Scope Spells Attributes Tag Element Content WellFormed isAllowed isDeclaration
  namedCharacters spaced textReserved valueReserved)

/-! ## Written text -/

/-- The characters that are written as references. -/
def escapedChars : List Char := ['&', '<', '>', '"', '\'']

/-- A character is written as the reference to it, or as it is. -/
theorem escapeChar_cases (c : Char) :
    (∃ name, (name, c) ∈ namedCharacters ∧ escapeChar c = '&' :: (name.toList ++ [';'])) ∨
      c ∉ escapedChars ∧ escapeChar c = [c] := by
  unfold escapeChar
  split
  · exact .inl ⟨"amp", by decide, by decide⟩
  · exact .inl ⟨"lt", by decide, by decide⟩
  · exact .inl ⟨"gt", by decide, by decide⟩
  · exact .inl ⟨"quot", by decide, by decide⟩
  · exact .inl ⟨"apos", by decide, by decide⟩
  · next amp lt gt quot apos =>
    exact .inr ⟨by simpa [escapedChars] using ⟨amp, lt, gt, quot, apos⟩, rfl⟩

/-- Written text spells the text that it was written for. -/
theorem spells_escape {reserved : List Char} (escaped : reserved ⊆ escapedChars) {t : Text}
    (allowed : ∀ c ∈ escape t, isAllowed c = true) : ∃ value, Spells reserved (escape t) value := by
  induction t with
  | nil => exact ⟨[], .nil⟩
  | cons c cs ih =>
    have text : escape (c :: cs) = escapeChar c ++ escape cs := rfl
    rw [text, List.forall_mem_append] at allowed
    obtain ⟨value, more⟩ := ih allowed.2
    rcases escapeChar_cases c with ⟨name, known, written⟩ | ⟨free, written⟩
    · rw [text, written]
      simpa using ⟨c :: value, Spells.reference known more⟩
    · have here : isAllowed c = true := allowed.1 c (by simp [written])
      rw [text, written]
      exact ⟨spaced c :: value, .char here (fun h => free (escaped h)) more⟩

theorem mem_escape {A : Char → Prop} (allowed : ∀ c, isAllowed c = true → A c) {t : Text}
    (h : ∀ c ∈ t, A c) : ∀ c ∈ escape t, A c := by
  intro c hc
  obtain ⟨d, hd, hc⟩ := List.mem_flatMap.1 hc
  rcases escapeChar_cases d with ⟨name, known, written⟩ | ⟨_, written⟩
  · have spelled : Spells [] ('&' :: (name.toList ++ ';' :: [])) [d] := .reference known .nil
    exact allowed c (spelled.isAllowed c (written ▸ hc))
  · rw [written, List.mem_singleton] at hc
    exact hc ▸ h d hd

/-! ## Lawful trees -/

/-- The labels inside a formula: the one that the template declares, and that of XML itself. -/
def formulaScope : Scope := Scope.outermost.enter [("xmlns:m", namespaceName)]

/-- A name whose label is declared. -/
def isFormulaName (name : String) : Bool := Markup.Xml.isQualifiedName name && formulaScope.binds name

/-- The name of an attribute, which declares no label itself. -/
def isFormulaKey (key : String) : Bool := isFormulaName key && !isDeclaration (key, [])

/-- The names of the tree are lawful in a formula, and its characters satisfy `A`. No element has more than
one attribute. -/
inductive Node.Lawful (A : Char → Prop) : Node → Prop where
  | text {t : Text} (h : ∀ c ∈ t, A c) : Lawful A (.text t)
  | element {tag : String} {attrs : List (String × Text)} {children : List Node}
      (name : isFormulaName tag = true) (few : attrs.length ≤ 1)
      (keys : ∀ attr ∈ attrs, isFormulaKey attr.1 = true) (values : ∀ attr ∈ attrs, ∀ c ∈ attr.2, A c)
      (h : ∀ n ∈ children, n.Lawful A) : Lawful A (.element tag attrs children)

/-- An element of a formula declares no labels. -/
theorem exists_open? {tag : String} {attrs : List (String × Text)} (name : isFormulaName tag = true)
    (few : attrs.length ≤ 1) (keys : ∀ attr ∈ attrs, isFormulaKey attr.1 = true) :
    ∃ o, Markup.Xml.open? formulaScope tag attrs = some o ∧ o.scope = formulaScope := by
  simp only [isFormulaKey, isFormulaName, Bool.and_eq_true, Bool.not_eq_true'] at name keys
  have own : ∀ attr ∈ attrs, isDeclaration attr = false := fun attr hattr => (keys attr hattr).2
  have unlabelled : ∀ attr ∈ attrs, Markup.Xml.declaredLabel? attr = none ∧ attr.1 ≠ "xmlns" := by
    intro attr hattr
    have := own attr hattr
    simp only [isDeclaration, Bool.or_eq_false_iff, beq_eq_false_iff_ne, Option.isSome_eq_false_iff,
      Option.isNone_iff_eq_none] at this
    exact ⟨this.2, this.1⟩
  have scope : formulaScope.enter attrs = formulaScope := by
    rw [Scope.enter, List.filterMap_eq_nil_iff.2, List.nil_append]
    intro attr hattr
    rw [(unlabelled attr hattr).1]
    rfl
  have lawful : attrs.all Markup.Xml.isLawful = true := by
    rw [List.all_eq_true]
    intro attr hattr
    simp [Markup.Xml.isLawful, unlabelled attr hattr]
  have kept : attrs.filter (fun a => !isDeclaration a) = attrs := by
    rw [List.filter_eq_self]
    intro attr hattr
    rw [own attr hattr]
    rfl
  have bound : attrs.all (fun a => formulaScope.binds a.1) = true := by
    rw [List.all_eq_true]
    exact fun attr hattr => (keys attr hattr).1.2
  have distinct {α : Type} [BEq α] (f : String × Text → α) : Markup.Xml.areDistinct (attrs.map f) = true := by
    cases attrs with
    | nil => rfl
    | cons attr more =>
      obtain rfl : more = [] := List.eq_nil_of_length_eq_zero (by simpa using few)
      rfl
  refine ⟨⟨tag, attrs, formulaScope, []⟩, ?_, rfl⟩
  rw [Markup.Xml.open?]
  simp only [scope, lawful, kept, bound, distinct, name.2, Bool.and_true, if_true]

theorem attributes_renderAttr {attrs : List (String × Text)} (keys : ∀ attr ∈ attrs, isFormulaKey attr.1 = true)
    (allowed : ∀ c ∈ attrs.flatMap renderAttr, isAllowed c = true) :
    ∃ attrs', Attributes attrs' (attrs.flatMap renderAttr) ∧ attrs'.map Prod.fst = attrs.map Prod.fst := by
  induction attrs with
  | nil => exact ⟨[], .nil, rfl⟩
  | cons attr attrs ih =>
    rw [List.forall_mem_cons] at keys
    rw [List.flatMap_cons, List.forall_mem_append] at allowed
    obtain ⟨attrs', more, same⟩ := ih keys.2 allowed.2
    have inside : ∀ c ∈ escape attr.2, isAllowed c = true := by
      intro c hc
      exact allowed.1 c (by simp [renderAttr, hc])
    obtain ⟨value, spells⟩ : ∃ value, Spells valueReserved (escape attr.2) value :=
      spells_escape (by decide) inside
    have name : Markup.Xml.isQualifiedName attr.1 = true := by
      simp only [isFormulaKey, isFormulaName, Bool.and_eq_true] at keys
      exact keys.1.1.1
    exact ⟨(attr.1, value) :: attrs', .cons name spells more, by simp [same]⟩

/-- A head with at most one attribute is a start tag, as no name can stand in it twice. -/
theorem tag_renderHead {tag : String} {attrs : List (String × Text)} (name : isFormulaName tag = true)
    (few : attrs.length ≤ 1) (keys : ∀ attr ∈ attrs, isFormulaKey attr.1 = true)
    (allowed : ∀ c ∈ renderHead tag attrs, isAllowed c = true) :
    Tag formulaScope tag formulaScope (renderHead tag attrs) := by
  rw [renderHead, List.forall_mem_append] at allowed
  obtain ⟨attrs', spelled, same⟩ := attributes_renderAttr keys allowed.2
  have few' : attrs'.length ≤ 1 := by
    have length := congrArg List.length same
    rw [List.length_map, List.length_map] at length
    omega
  have keys' : ∀ attr ∈ attrs', isFormulaKey attr.1 = true := by
    intro attr hattr
    have key : attr.1 ∈ attrs.map Prod.fst := same ▸ List.mem_map_of_mem hattr
    obtain ⟨found, hfound, eq⟩ := List.mem_map.1 key
    exact eq ▸ keys found hfound
  obtain ⟨o, opened, scope⟩ := exists_open? name few' keys'
  rw [isFormulaName, Bool.and_eq_true] at name
  have written : Tag formulaScope tag o.scope (renderHead tag attrs) := .mk name.1 spelled opened
  rwa [scope] at written

/-! ## The written form of a lawful tree -/

theorem content_renderAll {ns : List Node}
    (step : ∀ n ∈ ns, (∀ c ∈ n.render, isAllowed c = true) → ∀ rest, Content formulaScope rest →
      Content formulaScope (n.render ++ rest))
    (allowed : ∀ c ∈ Node.renderAll ns, isAllowed c = true) : Content formulaScope (Node.renderAll ns) := by
  induction ns with
  | nil => exact .nil formulaScope
  | cons n ns ih =>
    rw [Node.renderAll, List.forall_mem_append] at allowed
    rw [List.forall_mem_cons] at step
    exact step.1 allowed.1 _ (ih step.2 allowed.2)

/-- A lawful tree is written as content of an element, by induction over the tree. -/
theorem Node.Lawful.content {A : Char → Prop} {n : Node} (lawful : n.Lawful A) :
    (∀ c ∈ n.render, isAllowed c = true) → ∀ rest, Content formulaScope rest →
      Content formulaScope (n.render ++ rest) := by
  induction lawful with
  | @text t h =>
    intro allowed rest more
    obtain ⟨value, spells⟩ : ∃ value, Spells textReserved (escape t) value :=
      spells_escape (by decide) allowed
    exact .text spells more
  | @element tag attrs children name few keys _ _ ih =>
    intro allowed rest more
    cases children with
    | nil =>
      rw [Node.render, List.forall_mem_append] at allowed
      exact .element (.single (tag_renderHead name few keys allowed.1)) more
    | cons m ms =>
      have inside : m.render ++ Node.renderAll ms = Node.renderAll (m :: ms) := rfl
      rw [Node.render, inside] at allowed ⊢
      simp only [List.forall_mem_append, List.forall_mem_cons] at allowed
      have head := tag_renderHead name few keys allowed.1.1.1.1
      exact .element (.paired head (content_renderAll ih allowed.1.1.1.2.2)) more

section Characters

variable {A : Char → Prop} (allowed : ∀ c, isAllowed c = true → A c)
include allowed

theorem mem_literal {t : Text} (h : t.all isAllowed = true) : ∀ c ∈ t, A c := by
  rw [List.all_eq_true] at h
  exact fun c hc => allowed c (h c hc)

theorem mem_name {name : String} (h : isFormulaName name = true) : ∀ c ∈ name.toList, A c := by
  rw [isFormulaName, Bool.and_eq_true] at h
  exact fun c hc => allowed c (Markup.Xml.isAllowed_of_isQualifiedName h.1 c hc)

/-- A head is made of names, values and characters that are allowed anyway. -/
theorem mem_renderHead {tag : String} {attrs : List (String × Text)} (name : isFormulaName tag = true)
    (keys : ∀ attr ∈ attrs, isFormulaKey attr.1 = true) (values : ∀ attr ∈ attrs, ∀ c ∈ attr.2, A c) :
    ∀ c ∈ renderHead tag attrs, A c := by
  have written : ∀ attr ∈ attrs, ∀ c ∈ renderAttr attr, A c := by
    intro attr hattr
    have key := keys attr hattr
    rw [isFormulaKey, Bool.and_eq_true] at key
    simp only [renderAttr, List.forall_mem_append, List.forall_mem_cons]
    exact ⟨⟨⟨⟨allowed ' ' (by decide), mem_name allowed key.1⟩, mem_literal allowed (by decide)⟩,
      mem_escape allowed (values attr hattr)⟩, allowed '"' (by decide), by simp⟩
  rw [renderHead, List.forall_mem_append, List.forall_mem_cons]
  refine ⟨⟨allowed '<' (by decide), mem_name allowed name⟩, ?_⟩
  intro c hc
  obtain ⟨attr, hattr, hc⟩ := List.mem_flatMap.1 hc
  exact written attr hattr c hc

omit allowed in
theorem mem_renderAll {ns : List Node} (step : ∀ n ∈ ns, ∀ c ∈ n.render, A c) :
    ∀ c ∈ Node.renderAll ns, A c := by
  induction ns with
  | nil => simp [Node.renderAll]
  | cons n ns ih =>
    rw [List.forall_mem_cons] at step
    rw [Node.renderAll, List.forall_mem_append]
    exact ⟨step.1, ih step.2⟩

/-- The characters of a lawful tree are those of its texts, apart from what may stand in a document. -/
theorem Node.Lawful.mem_render {n : Node} (lawful : n.Lawful A) : ∀ c ∈ n.render, A c := by
  induction lawful with
  | text h => exact mem_escape allowed h
  | @element tag attrs children name few keys values _ ih =>
    have head := mem_renderHead allowed name keys values
    cases children with
    | nil =>
      rw [Node.render, List.forall_mem_append]
      exact ⟨head, mem_literal allowed (by decide)⟩
    | cons m ms =>
      have inside : m.render ++ Node.renderAll ms = Node.renderAll (m :: ms) := rfl
      rw [Node.render, inside]
      simp only [List.forall_mem_append, List.forall_mem_cons]
      exact ⟨⟨⟨⟨head, allowed '>' (by decide), mem_renderAll ih⟩, mem_literal allowed (by decide)⟩,
        mem_name allowed name⟩, allowed '>' (by decide), by simp⟩

end Characters

/-! ## The template -/

theorem tag_declaration {name : String} (lawful : isFormulaName name = true) :
    Tag Scope.outermost name formulaScope ('<' :: name.toList ++ declaration) := by
  rw [isFormulaName, Bool.and_eq_true] at lawful
  have spells : Spells valueReserved namespaceName namespaceName :=
    Markup.Xml.spells_self (by decide)
  have written : Attributes [("xmlns:m", namespaceName)] (declaration ++ []) :=
    .cons (by decide) spells .nil
  have address : Markup.Xml.isLawful ("xmlns:m", namespaceName) = true := by decide +kernel
  have own : isDeclaration ("xmlns:m", namespaceName) = true := by decide
  rw [List.append_nil] at written
  have opened : Markup.Xml.open? Scope.outermost name [("xmlns:m", namespaceName)] =
      some ⟨name, [], formulaScope, []⟩ := by
    have bound : (Scope.outermost.enter [("xmlns:m", namespaceName)]).binds name = true := lawful.2
    simp [Markup.Xml.open?, address, own, bound, Markup.Xml.areDistinct, formulaScope]
  exact .mk lawful.1 written opened

theorem element_formulaElement {outer : Scope} {attrs inner : Text}
    (tag : Tag outer "m:oMath" formulaScope ("<m:oMath".toList ++ attrs)) (content : Content formulaScope inner) :
    Element outer (formulaElement attrs inner) := by
  have closing : "</m:oMath>".toList = "</".toList ++ "m:oMath".toList ++ ['>'] := by decide
  rw [formulaElement]
  split
  · exact .single tag
  · have element := Element.paired tag content
    rw [closing]
    simpa only [List.append_assoc, List.cons_append] using element

/-- The template around written content is well formed if the content is, between its tags. -/
theorem wellFormed_of_content {inner : Text} (content : Content formulaScope inner) (display : Bool) :
    WellFormed (template display inner) := by
  cases display with
  | false =>
    have opening : "<m:oMath".toList = '<' :: "m:oMath".toList := by decide
    refine element_formulaElement ?_ content
    rw [opening]
    exact tag_declaration (by decide)
  | true =>
    have opening : "<m:oMathPara".toList = '<' :: "m:oMathPara".toList := by decide
    have closing : "</m:oMathPara>".toList = "</".toList ++ "m:oMathPara".toList ++ ['>'] := by decide
    have head : Tag formulaScope "m:oMath" formulaScope (renderHead "m:oMath" []) :=
      tag_renderHead (by decide) (by decide) (by simp) (List.all_eq_true.1 (by decide))
    have bare : Tag formulaScope "m:oMath" formulaScope ("<m:oMath".toList ++ []) := head
    have inside := Content.element (element_formulaElement bare content) (.nil formulaScope)
    have tag : Tag Scope.outermost "m:oMathPara" formulaScope ('<' :: "m:oMathPara".toList ++ declaration) :=
      tag_declaration (by decide)
    have element := Element.paired tag inside
    rw [WellFormed, template, if_pos rfl, opening, closing]
    simpa only [List.append_assoc, List.cons_append, List.append_nil] using element

theorem mem_template_of_mem {inner : Text} {c : Char} (h : c ∈ inner) (display : Bool) :
    c ∈ template display inner := by
  have inside (attrs : Text) : c ∈ formulaElement attrs inner := by
    rw [formulaElement, if_neg (List.ne_nil_of_mem h)]
    simp only [List.mem_append, List.mem_cons, h, true_or, or_true]
  cases display with
  | false => exact inside declaration
  | true =>
    rw [template, if_pos rfl]
    simp only [List.mem_append, List.mem_cons, inside, true_or, or_true]

/-- The characters of a pasted formula are those of its content, apart from what may stand in a document. -/
theorem mem_template {A : Char → Prop} (allowed : ∀ c, isAllowed c = true → A c) {inner : Text}
    (h : ∀ c ∈ inner, A c) (display : Bool) : ∀ c ∈ template display inner, A c := by
  have inside {attrs : Text} (hattrs : attrs.all isAllowed = true) :
      ∀ c ∈ formulaElement attrs inner, A c := by
    rw [formulaElement]
    split
    · simp only [List.forall_mem_append]
      exact ⟨⟨mem_literal allowed (by decide), mem_literal allowed hattrs⟩, mem_literal allowed (by decide)⟩
    · simp only [List.forall_mem_append, List.forall_mem_cons]
      exact ⟨⟨⟨mem_literal allowed (by decide), mem_literal allowed hattrs⟩, allowed '>' (by decide), h⟩,
        mem_literal allowed (by decide)⟩
  cases display with
  | false => exact inside (by decide)
  | true =>
    rw [template, if_pos rfl]
    simp only [List.forall_mem_append, List.forall_mem_cons]
    exact ⟨⟨⟨mem_literal allowed (by decide), mem_literal allowed (by decide)⟩, allowed '>' (by decide),
      inside (by decide)⟩, mem_literal allowed (by decide)⟩

/-- A pasted formula is well formed exactly if its characters may stand in a document. -/
theorem wellFormed_template_iff {A : Char → Prop} {ns : List Node} (lawful : ∀ n ∈ ns, n.Lawful A)
    (display : Bool) :
    WellFormed (template display (Node.renderAll ns)) ↔
      ∀ c ∈ template display (Node.renderAll ns), isAllowed c = true := by
  refine ⟨Markup.Xml.WellFormed.isAllowed, fun allowed => ?_⟩
  apply wellFormed_of_content
  apply content_renderAll fun n hn => (lawful n hn).content
  exact fun c hc => allowed c (mem_template_of_mem hc display)

/-! ## The structures of a formula -/

section Structures

variable {A : Char → Prop} {tag : String} {ns : List Node}

theorem lawful_element (name : isFormulaName ("m:" ++ tag) = true) :
    (element tag ns).Lawful A ↔ ∀ n ∈ ns, n.Lawful A := by
  constructor
  · rintro (_ | ⟨_, _, _, _, h⟩)
    exact h
  · exact .element name (by simp) (by simp) (by simp)

theorem lawful_property (name : isFormulaName ("m:" ++ tag) = true) {value : Text} :
    (property tag value).Lawful A ↔ ∀ c ∈ value, A c := by
  constructor
  · rintro (_ | ⟨_, _, _, values, _⟩)
    simpa using values
  · intro h
    exact .element name (by simp) (by simpa using (by decide : isFormulaKey "m:val" = true)) (by simpa using h)
      (by simp)

variable (allowed : ∀ c, isAllowed c = true → A c)
include allowed

theorem lawful_runText {t : Text} (h : ∀ c ∈ t, A c) : (runText t).Lawful A := by
  have preserve : ∀ c ∈ "preserve".toList, A c := mem_literal allowed (by decide)
  have key : isFormulaKey "xml:space" = true := by decide
  refine .element (by decide) ?_ ?_ ?_ ?_
  · split <;> simp
  · split <;> simp [key]
  · split
    · simp
    · simpa using preserve
  · split
    · simp
    · simpa using Node.Lawful.text h

theorem lawful_run {t : Text} (h : ∀ c ∈ t, A c) (plain : Bool) : (run t plain).Lawful A := by
  have text := lawful_runText allowed h
  have upright : (element "rPr" [property "sty" ['p']]).Lawful A := by
    simpa (disch := decide) [lawful_element, lawful_property] using allowed 'p' (by decide)
  refine .element (by decide) (by simp) (by simp) (by simp) ?_
  cases plain with
  | false => simpa using text
  | true => simpa using ⟨upright, text⟩

end Structures

end OfficeFormula.Omml
