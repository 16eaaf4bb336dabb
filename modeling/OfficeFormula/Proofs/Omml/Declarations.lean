import Mathlib.Data.List.Induction
import OfficeFormula.Proofs.Omml.Wrapper

/-!
# Trees that declare the namespace

A tree may declare the formula namespace on any of its elements. The declarations are looked for in its
written form, where text may look like a declaration and like the tags of a formula. They are found as
they are meant (`removeDeclarations_render`) if no name is broken by a blank and no other attribute has the
name of a declaration or a value with its word, in whatever case. Such a tree is pasted as its content
without declarations, inside an element that has the only one (`wrap_undeclared`).

A declaration is found at a blank, and it has two quotes. So all but blanks is kept where it stands alone,
and text is kept because it has no quotes (`Keeps`).
-/

namespace OfficeFormula

namespace Omml

/-! ## What is kept -/

/-- A declaration begins with a blank. -/
theorem removeDeclarations_cons {c : Char} (solid : isBlank c = false) (t : Text) :
    removeDeclarations (c :: t) = c :: removeDeclarations t :=
  removeDeclarations_of_none (by simp [afterDeclaration?, solid])

/-- No blank stands in the text. -/
def isSolid (t : Text) : Bool := t.all (!isBlank ·)

/-- A text without blanks is kept, as a declaration begins with one. -/
theorem removeDeclarations_solid {u : Text} (solid : isSolid u = true) (t : Text) :
    removeDeclarations (u ++ t) = u ++ removeDeclarations t := by
  induction u with
  | nil => rfl
  | cons c u ih =>
    rw [isSolid, List.all_cons, Bool.and_eq_true, Bool.not_eq_true'] at solid
    rw [List.cons_append, removeDeclarations_cons solid.1, ih solid.2, List.cons_append]

/-- A text is kept if the word of a declaration begins nowhere in it. -/
theorem removeDeclarations_append {u t : Text} (start : t.dropWhile isBlank = t)
    (absent : ∀ v, v <:+ u → Text.startsWithWord declarationWord (v ++ t) = false) :
    removeDeclarations (u ++ t) = u ++ removeDeclarations t := by
  induction u with
  | nil => rfl
  | cons c u ih =>
    have skip : (u ++ t).dropWhile isBlank = u.dropWhile isBlank ++ t := by
      rw [List.dropWhile_append]
      split
      · next empty => rw [start, List.isEmpty_iff.1 empty, List.nil_append]
      · rfl
    have suffix : u.dropWhile isBlank <:+ c :: u := (List.dropWhile_suffix isBlank).trans (List.suffix_cons c u)
    have none : afterDeclaration? (c :: (u ++ t)) = none :=
      afterDeclaration?_of_not_startsWithWord (skip ▸ absent _ suffix)
    rw [List.cons_append, removeDeclarations_of_none none,
      ih fun v hv => absent v (hv.trans (List.suffix_cons c u)), List.cons_append]

theorem startsWithWord_of_quote_not_mem {t : Text} (free : '"' ∉ t) :
    Text.startsWithWord declarationWord t = false :=
  startsWithWord_of_isQuiet (isQuiet_of_quote_not_mem free)

/-- What stands before the text is kept if it has no quotes. -/
def Keeps (t : Text) : Prop := ∀ u : Text, '"' ∉ u → removeDeclarations (u ++ t) = u ++ removeDeclarations t

namespace Keeps

variable {t : Text}

theorem nil : Keeps [] := by
  intro u free
  refine removeDeclarations_append rfl fun v suffix => startsWithWord_of_quote_not_mem ?_
  rw [List.append_nil]
  exact fun h => free (suffix.subset h)

theorem tag (t : Text) : Keeps ('<' :: t) := by
  intro u free
  refine removeDeclarations_append rfl fun v suffix => ?_
  rw [Text.startsWithWord_append_cons (by decide)]
  apply startsWithWord_of_quote_not_mem
  rw [List.mem_append, not_or]
  exact ⟨fun h => free (suffix.subset h), by decide⟩

theorem append {u : Text} (free : '"' ∉ u) (h : Keeps t) : Keeps (u ++ t) := by
  intro v free'
  rw [h u free, ← List.append_assoc, ← List.append_assoc]
  apply h
  rw [List.mem_append, not_or]
  exact ⟨free', free⟩

theorem render (n : Node) (h : Keeps t) : Keeps (n.render ++ t) := by
  cases n with
  | text s => exact Keeps.append (not_mem_escape (by decide) s) h
  | element name attrs children =>
    cases children with
    | nil => exact Keeps.tag _
    | cons n ns => exact Keeps.tag _

theorem renderAll (ns : List Node) (h : Keeps t) : Keeps (Node.renderAll ns ++ t) := by
  induction ns with
  | nil => exact h
  | cons n ns ih =>
    rw [Node.renderAll, List.append_assoc]
    exact Keeps.render n ih

end Keeps

/-! ## Attributes -/

/-- A quote that ends the word of a declaration follows that word. -/
theorem map_foldCase_of_startsWithWord {v t : Text} (free : '"' ∉ v)
    (h : Text.startsWithWord declarationWord (v ++ '"' :: t) = true) :
    v.map foldCase = "xmlns:m=".toList := by
  obtain ⟨rest, after⟩ := Option.isSome_iff_exists.1 h
  obtain ⟨found, text, folded⟩ := Text.exists_append_of_afterWord? after
  have same : v.map foldCase ++ '"' :: t.map foldCase = "xmlns:m=".toList ++ '"' :: rest.map foldCase := by
    have word : declarationWord = "xmlns:m=".toList ++ ['"'] := by decide
    have quote : foldCase '"' = '"' := by decide
    have := congrArg (List.map foldCase) text
    rwa [List.map_append, List.map_append, folded, List.map_cons, quote, word, List.append_assoc] at this
  have free : ∀ c ∈ v.map foldCase, decide (c ≠ '"') = true := by
    rintro _ h
    obtain ⟨c, hc, rfl⟩ := List.mem_map.1 h
    refine decide_eq_true fun folds => ?_
    rw [eq_of_foldCase_eq folds (by decide)] at hc
    exact free hc
  -- Both sides have their first quote after the word.
  have before := congrArg (List.takeWhile (· ≠ '"')) same
  rwa [List.takeWhile_append_of_pos free, List.takeWhile_append_of_pos (List.all_eq_true.1 (by decide)),
    List.takeWhile_cons_of_neg (by decide), List.takeWhile_cons_of_neg (by decide), List.append_nil,
    List.append_nil] at before

theorem escapeChar_eq_or (c : Char) : escapeChar c = [c] ∨ ∃ name, escapeChar c = name ++ [';'] := by
  fun_cases escapeChar c with
  | case1 => exact .inr ⟨"&amp".toList, by decide⟩
  | case2 => exact .inr ⟨"&lt".toList, by decide⟩
  | case3 => exact .inr ⟨"&gt".toList, by decide⟩
  | case4 => exact .inr ⟨"&quot".toList, by decide⟩
  | case5 => exact .inr ⟨"&apos".toList, by decide⟩
  | case6 => exact .inl rfl

/-- An end of a written text without references is an end of the text. -/
theorem suffix_of_suffix_escape {v t : Text} (free : ';' ∉ v) (h : v <:+ escape t) : v <:+ t := by
  induction t using List.reverseRecOn generalizing v with
  | nil => exact h
  | append_singleton t c ih =>
    have text : escape (t ++ [c]) = escape t ++ escapeChar c := by simp [escape]
    rw [text] at h
    rcases escapeChar_eq_or c with written | ⟨name, written⟩
    · rw [written] at h
      rcases List.suffix_concat_iff.1 h with rfl | ⟨u, rfl, hu⟩
      · exact List.nil_suffix
      · have inside := ih (fun hu => free (List.mem_append_left _ hu)) hu
        exact List.suffix_concat_iff.2 (.inr ⟨u, rfl, inside⟩)
    · rw [written, ← List.append_assoc] at h
      rcases List.suffix_concat_iff.1 h with rfl | ⟨u, rfl, -⟩
      · exact List.nil_suffix
      · simp at free

/-- No character that ends a name in a tag stands in the name. -/
def isUnbroken (name : Text) : Bool := isSolid name && '"' ∉ name && '>' ∉ name

/-- The attribute declares the formula namespace. -/
def declares (attr : String × Text) : Bool := attr.1 = "xmlns:m"

/-- An attribute that declares the formula namespace, or has neither the name of a declaration nor a value
with its word, in whatever case. -/
def isOrdinaryAttr (attr : String × Text) : Bool :=
  isUnbroken attr.1.toList &&
    (declares attr || attr.1.toList.map foldCase ≠ "xmlns:m".toList &&
      !Text.contains "xmlns:m=".toList (attr.2.map foldCase))

theorem isUnbroken_iff {name : Text} :
    isUnbroken name = true ↔ isSolid name = true ∧ '"' ∉ name ∧ '>' ∉ name := by
  simp [isUnbroken, and_assoc]

theorem removeDeclarations_attr_of_declares {attr : String × Text} (h : declares attr = true) (t : Text) :
    removeDeclarations (renderAttr attr ++ t) = removeDeclarations t := by
  obtain ⟨name, value⟩ := attr
  obtain rfl : name = "xmlns:m" := of_decide_eq_true h
  apply removeDeclarations_of_some
  have text : renderAttr ("xmlns:m", value) ++ t = ' ' :: ("xmlns:m=\"".toList ++ (escape value ++ '"' :: t)) := by
    have word : "xmlns:m=\"".toList = "xmlns:m".toList ++ "=\"".toList := by decide
    rw [renderAttr, word]
    simp only [List.append_assoc, List.cons_append, List.nil_append]
  have skip : ("xmlns:m=\"".toList ++ (escape value ++ '"' :: t)).dropWhile isBlank =
      "xmlns:m=\"".toList ++ (escape value ++ '"' :: t) := rfl
  have inside : ∀ c ∈ escape value, decide (c ≠ '"') = true := by
    intro c hc
    exact decide_eq_true fun h => not_mem_escape (by decide) value (h ▸ hc)
  have quote : (escape value ++ '"' :: t).dropWhile (· ≠ '"') = '"' :: t := by
    rw [List.dropWhile_append_of_pos inside]
    rfl
  have after : Text.afterWord? "xmlns:m=\"".toList ("xmlns:m=\"".toList ++ (escape value ++ '"' :: t)) =
      some (escape value ++ '"' :: t) := Text.afterWord?_append (by decide) _
  rw [text, afterDeclaration?, if_pos (by decide), skip, after]
  simp only [Option.bind_eq_bind, Option.bind_some, quote]

theorem removeDeclarations_attr_of_not_declares {attr : String × Text} (ordinary : isOrdinaryAttr attr = true)
    (h : declares attr = false) (t : Text) :
    removeDeclarations (renderAttr attr ++ t) = renderAttr attr ++ removeDeclarations t := by
  simp only [isOrdinaryAttr, h, Bool.false_or, Bool.and_eq_true, decide_eq_true_eq, Bool.not_eq_true',
    isUnbroken_iff] at ordinary
  obtain ⟨unbroken, other, absent⟩ := ordinary
  have text (r : Text) : renderAttr attr ++ r =
      ' ' :: (attr.1.toList ++ ['='] ++ '"' :: (escape attr.2 ++ '"' :: r)) := by
    rw [renderAttr, show "=\"".toList = ['=', '"'] by decide]
    simp only [List.append_assoc, List.cons_append, List.nil_append]
  have solid : isSolid (attr.1.toList ++ ['=']) = true := by
    rw [isSolid, List.all_append, Bool.and_eq_true]
    exact ⟨unbroken.1, by decide⟩
  -- After the blank stands another name.
  have name : afterDeclaration? (' ' :: (attr.1.toList ++ ['='] ++ '"' :: (escape attr.2 ++ '"' :: t))) = none := by
    apply afterDeclaration?_of_not_startsWithWord
    have skip (r : Text) : (attr.1.toList ++ ['='] ++ r).dropWhile isBlank = attr.1.toList ++ ['='] ++ r := by
      cases first : attr.1.toList ++ ['='] with
      | nil => simp at first
      | cons c cs =>
        rw [first, isSolid, List.all_cons, Bool.and_eq_true, Bool.not_eq_true'] at solid
        exact List.dropWhile_cons_of_neg (by simp [solid.1])
    have free : '"' ∉ attr.1.toList ++ ['='] := by
      rw [List.mem_append, not_or]
      exact ⟨unbroken.2.1, by decide⟩
    rw [skip]
    refine Bool.eq_false_iff.2 fun found => other ?_
    have folded := map_foldCase_of_startsWithWord free found
    have word : "xmlns:m=".toList = "xmlns:m".toList ++ ['='] := by decide
    have sign : ['='].map foldCase = ['='] := by decide
    rw [List.map_append, sign, word] at folded
    exact List.append_cancel_right folded
  -- The word of a declaration that ends with the value would stand in the value.
  have value : removeDeclarations (escape attr.2 ++ '"' :: t) = escape attr.2 ++ removeDeclarations ('"' :: t) := by
    refine removeDeclarations_append rfl fun v suffix => Bool.eq_false_iff.2 fun found => ?_
    have free : '"' ∉ v := fun hv => not_mem_escape (by decide) attr.2 (suffix.subset hv)
    have folded := map_foldCase_of_startsWithWord free found
    have plain : ';' ∉ v := by
      intro hv
      have : ';' ∈ v.map foldCase := List.mem_map.2 ⟨';', hv, by decide⟩
      rw [folded] at this
      exact absurd this (by decide)
    have inside := (suffix_of_suffix_escape plain suffix).isInfix.map foldCase
    rw [folded] at inside
    exact Bool.eq_false_iff.1 absent (Text.contains_iff_infix.2 inside)
  rw [text, text, removeDeclarations_of_none name, removeDeclarations_solid solid, removeDeclarations_cons (by decide),
    value, removeDeclarations_cons (by decide)]

/-- Attributes that declare are taken away and the others are kept. -/
theorem removeDeclarations_attrs {attrs : List (String × Text)} (ordinary : ∀ attr ∈ attrs, isOrdinaryAttr attr = true)
    (t : Text) :
    removeDeclarations (attrs.flatMap renderAttr ++ t) =
      (attrs.filter (!declares ·)).flatMap renderAttr ++ removeDeclarations t := by
  induction attrs with
  | nil => rfl
  | cons attr attrs ih =>
    rw [List.forall_mem_cons] at ordinary
    rw [List.flatMap_cons, List.append_assoc]
    cases h : declares attr with
    | true =>
      rw [removeDeclarations_attr_of_declares h, ih ordinary.2, List.filter_cons_of_neg (by simp [h])]
    | false =>
      rw [removeDeclarations_attr_of_not_declares ordinary.1 h, ih ordinary.2,
        List.filter_cons_of_pos (by simp [h]), List.flatMap_cons, List.append_assoc]

theorem removeDeclarations_head {tag : String} {attrs : List (String × Text)} (name : isUnbroken tag.toList = true)
    (ordinary : ∀ attr ∈ attrs, isOrdinaryAttr attr = true) (t : Text) :
    removeDeclarations (renderHead tag attrs ++ t) =
      renderHead tag (attrs.filter (!declares ·)) ++ removeDeclarations t := by
  have solid : isSolid ('<' :: tag.toList) = true := by
    rw [isSolid, List.all_cons, Bool.and_eq_true]
    exact ⟨by decide, (isUnbroken_iff.1 name).1⟩
  rw [renderHead, List.append_assoc, removeDeclarations_solid solid, removeDeclarations_attrs ordinary, renderHead,
    List.append_assoc]

/-! ## Trees -/

namespace Node

mutual

/-- The tree without the declarations of the formula namespace. -/
def undeclared : Node → Node
  | element tag attrs children => element tag (attrs.filter (!declares ·)) (undeclaredAll children)
  | text t => text t

def undeclaredAll : List Node → List Node
  | [] => []
  | n :: ns => n.undeclared :: undeclaredAll ns

end

/-- The names of the tree are unbroken, and no attribute can be mistaken for a declaration. -/
inductive Ordinary : Node → Prop where
  | element {tag : String} {attrs : List (String × Text)} {children : List Node} (name : isUnbroken tag.toList = true)
      (listed : ∀ attr ∈ attrs, isOrdinaryAttr attr = true) (inside : ∀ n ∈ children, n.Ordinary) :
      Ordinary (.element tag attrs children)
  | text (t : Text) : Ordinary (.text t)

/-- A tree without its declarations is ordinary, and has none left. -/
theorem Ordinary.undeclared {n : Node} (ordinary : n.Ordinary) :
    n.undeclared.Ordinary ∧ n.undeclared.undeclared = n.undeclared := by
  induction ordinary with
  | text t =>
    rw [Node.undeclared, Node.undeclared]
    exact ⟨.text t, rfl⟩
  | @element tag attrs children name ordinary inside ih =>
    have all : (∀ n ∈ undeclaredAll children, n.Ordinary) ∧
        undeclaredAll (undeclaredAll children) = undeclaredAll children := by
      clear inside
      induction children with
      | nil => simp [undeclaredAll]
      | cons n ns more =>
        rw [List.forall_mem_cons] at ih
        obtain ⟨rest, same⟩ := more ih.2
        rw [undeclaredAll, undeclaredAll, List.forall_mem_cons, ih.1.2, same]
        exact ⟨⟨ih.1.1, rest⟩, rfl⟩
    have twice : (attrs.filter (!declares ·)).filter (!declares ·) = attrs.filter (!declares ·) := by
      rw [List.filter_filter]
      simp only [Bool.and_self]
    rw [Node.undeclared, Node.undeclared, all.2, twice]
    exact ⟨.element name (fun attr h => ordinary attr (List.mem_filter.1 h).1) all.1, rfl⟩

end Node

theorem removeDeclarations_renderAll_of {ns : List Node}
    (step : ∀ n ∈ ns, ∀ t, Keeps t → removeDeclarations (n.render ++ t) = n.undeclared.render ++ removeDeclarations t)
    {t : Text} (h : Keeps t) :
    removeDeclarations (Node.renderAll ns ++ t) = Node.renderAll (Node.undeclaredAll ns) ++ removeDeclarations t := by
  induction ns with
  | nil => rfl
  | cons n ns ih =>
    rw [List.forall_mem_cons] at step
    rw [Node.renderAll, List.append_assoc, step.1 _ (Keeps.renderAll ns h), ih step.2, Node.undeclaredAll,
      Node.renderAll, List.append_assoc]

/-- To remove declarations from the written form of a tree is to remove them from the tree. -/
theorem removeDeclarations_render {n : Node} (ordinary : n.Ordinary) :
    ∀ t, Keeps t → removeDeclarations (n.render ++ t) = n.undeclared.render ++ removeDeclarations t := by
  induction ordinary with
  | text s =>
    intro t h
    exact h _ (not_mem_escape (by decide) s)
  | @element tag attrs children name ordinary _ ih =>
    intro t h
    cases children with
    | nil =>
      rw [Node.render, List.append_assoc, removeDeclarations_head name ordinary,
        removeDeclarations_solid (by decide), Node.undeclared, Node.undeclaredAll, Node.render, List.append_assoc]
    | cons n ns =>
      have text (attrs : List (String × Text)) (n : Node) (ns : List Node) (r : Text) :
          (Node.element tag attrs (n :: ns)).render ++ r =
            renderHead tag attrs ++ (['>'] ++ (Node.renderAll (n :: ns) ++
              ("</".toList ++ tag.toList ++ ['>'] ++ r))) := by
        simp [Node.render, Node.renderAll]
      have solid : isSolid ("</".toList ++ tag.toList ++ ['>']) = true := by
        rw [isSolid, List.all_append, List.all_append, Bool.and_eq_true, Bool.and_eq_true]
        exact ⟨⟨by decide, (isUnbroken_iff.1 name).1⟩, by decide⟩
      have closing : Keeps ("</".toList ++ tag.toList ++ ['>'] ++ t) := Keeps.tag _
      rw [text, removeDeclarations_head name ordinary, removeDeclarations_solid (by decide),
        removeDeclarations_renderAll_of ih closing, removeDeclarations_solid solid, Node.undeclared,
        Node.undeclaredAll, text]

/-! ## Pasted trees -/

/-- Written content in the form that can be pasted, with `attrs` in the outermost tag. -/
def enclosed (display : Bool) (attrs inner : Text) : Text :=
  if display then
    "<m:oMathPara".toList ++ attrs ++ '>' :: formulaElement [] inner ++ "</m:oMathPara>".toList
  else formulaElement attrs inner

theorem template_eq_enclosed (display : Bool) (inner : Text) :
    template display inner = enclosed display declaration inner := rfl

theorem removeDeclarations_declaration (t : Text) : removeDeclarations (declaration ++ t) = removeDeclarations t := by
  have attr : declaration = renderAttr ("xmlns:m", namespaceName) := by decide +kernel
  rw [attr]
  exact removeDeclarations_attr_of_declares rfl t

section Template

variable {inner attrs left : Text}

theorem removeDeclarations_formulaElement
    (start : ∀ t, removeDeclarations (attrs ++ t) = left ++ removeDeclarations t)
    (kept : ∀ t, Keeps t → removeDeclarations (inner ++ t) = inner ++ removeDeclarations t) (t : Text) :
    removeDeclarations (formulaElement attrs inner ++ t) = formulaElement left inner ++ removeDeclarations t := by
  unfold formulaElement
  split
  · rw [List.append_assoc, List.append_assoc, removeDeclarations_solid (by decide), start,
      removeDeclarations_solid (by decide), List.append_assoc, List.append_assoc]
  · simp only [List.append_assoc, List.cons_append]
    have closing : Keeps ("</m:oMath>".toList ++ t) := Keeps.tag _
    rw [removeDeclarations_solid (by decide), start, removeDeclarations_cons (by decide), kept _ closing,
      removeDeclarations_solid (by decide)]

/-- Nothing but the declaration is removed from the form that can be pasted. -/
theorem removeDeclarations_enclosed
    (kept : ∀ t, Keeps t → removeDeclarations (inner ++ t) = inner ++ removeDeclarations t) (display : Bool) :
    removeDeclarations (enclosed display declaration inner) = enclosed display [] inner := by
  have none (t : Text) : removeDeclarations ([] ++ t) = [] ++ removeDeclarations t := rfl
  cases display with
  | true =>
    have closing : removeDeclarations "</m:oMathPara>".toList = "</m:oMathPara>".toList := by
      simpa [removeDeclarations_nil] using removeDeclarations_solid (u := "</m:oMathPara>".toList) (by decide) []
    simp only [enclosed, if_true, List.append_assoc, List.cons_append]
    rw [removeDeclarations_solid (by decide), removeDeclarations_declaration,
      removeDeclarations_cons (by decide), removeDeclarations_formulaElement none kept, closing]
    rfl
  | false =>
    have start (t : Text) : removeDeclarations (declaration ++ t) = [] ++ removeDeclarations t :=
      removeDeclarations_declaration t
    simpa [enclosed, removeDeclarations_nil] using removeDeclarations_formulaElement start kept []

end Template

/-- A formula is pasted as its content without declarations in an element with one. That element has the only
declaration, and nothing else is lost. -/
theorem wrap_undeclared {attrs : List (String × Text)} {children : List Node}
    (ordinary : (Node.element "m:oMath" attrs children).Ordinary) (display : Bool) :
    wrap (Node.element "m:oMath" attrs children).render display =
        template display (Node.renderAll (Node.undeclaredAll children)) ∧
      removeDeclarations (wrap (Node.element "m:oMath" attrs children).render display) =
        enclosed display [] (Node.renderAll (Node.undeclaredAll children)) := by
  have clean : removeDeclarations (Node.element "m:oMath" attrs children).render =
      (Node.element "m:oMath" (attrs.filter (!declares ·)) (Node.undeclaredAll children)).render := by
    have whole := removeDeclarations_render ordinary [] Keeps.nil
    simpa only [List.append_nil, removeDeclarations_nil, Node.undeclared] using whole
  obtain ⟨again, same⟩ := ordinary.undeclared
  simp only [Node.undeclared, Node.element.injEq] at again same
  cases again with
  | element _ listed inside =>
    have names : ∀ attr ∈ attrs.filter (!declares ·), '>' ∉ attr.1.toList := by
      intro attr h hc
      have ordinary := listed attr h
      rw [isOrdinaryAttr, Bool.and_eq_true] at ordinary
      exact (isUnbroken_iff.1 ordinary.1).2.2 hc
    have kept : ∀ t, Keeps t → removeDeclarations (Node.renderAll (Node.undeclaredAll children) ++ t) =
        Node.renderAll (Node.undeclaredAll children) ++ removeDeclarations t := by
      intro t h
      have step := removeDeclarations_renderAll_of (fun n hn => removeDeclarations_render (inside n hn)) h
      rwa [same.2.2] at step
    have wrapped : wrap (Node.element "m:oMath" attrs children).render display =
        template display (Node.renderAll (Node.undeclaredAll children)) := by
      rw [wrap, innerMarkup_of_clean clean names]
    refine ⟨wrapped, ?_⟩
    rw [wrapped, template_eq_enclosed, removeDeclarations_enclosed kept]

/-- A run that declares the namespace, with a text that looks like a declaration and the end of a formula. -/
def declaringRun : Node :=
  .element "m:r" [("xmlns:m", "u".toList), ("axmlns:m", "1".toList)]
    [.element "m:t" [("xml:space", "preserve".toList)] [.text " xmlns:m=\"u\" </m:oMath>".toList]]

theorem ordinary_declaringRun : declaringRun.Ordinary := by
  refine .element (by decide) (by decide) ?_
  simp only [List.mem_singleton, forall_eq]
  refine .element (by decide) (by decide) ?_
  simp only [List.mem_singleton, forall_eq]
  exact .text _

/-- The text of the run is kept, and so is the attribute whose name ends like that of a declaration. -/
theorem wrap_undeclared_declaringRun :
    (Node.element "m:oMath" [("xmlns:m", "v".toList), ("m:val", "x > y".toList)] [declaringRun]).Ordinary ∧
      wrap (Node.element "m:oMath" [("xmlns:m", "v".toList), ("m:val", "x > y".toList)] [declaringRun]).render false =
        "<m:oMath".toList ++ declaration ++ "><m:r axmlns:m=\"1\"><m:t xml:space=\"preserve\">".toList ++
          " xmlns:m=&quot;u&quot; &lt;/m:oMath&gt;</m:t></m:r></m:oMath>".toList := by
  have ordinary :
      (Node.element "m:oMath" [("xmlns:m", "v".toList), ("m:val", "x > y".toList)] [declaringRun]).Ordinary := by
    refine .element (by decide) (by decide) ?_
    simp only [List.mem_singleton, forall_eq]
    exact ordinary_declaringRun
  exact ⟨ordinary, (wrap_undeclared ordinary false).1.trans (by decide +kernel)⟩

/-- A run with a value that ends with the word of a declaration in capitals. -/
def shoutingRun : Node := .element "m:r" [("m:val", " XMLNS:M=".toList), ("m:x", "y".toList)] []

/-- The word of a declaration in capitals is taken for a declaration, together with what follows it. -/
theorem wrap_shoutingRun :
    Text.contains "xmlns:m=".toList " XMLNS:M=".toList = false ∧
      wrap (Node.element "m:oMath" [] [shoutingRun]).render false =
        template false "<m:r m:val=\"y\"/>".toList := by
  refine ⟨by decide, ?_⟩
  have text : (Node.element "m:oMath" [] [shoutingRun]).render =
      "<m:oMath><m:r".toList ++ ' ' :: ("m:val=\"".toList ++ (" XMLNS:M=\" m:x=\"".toList ++
        "y\"/></m:oMath>".toList)) := by decide +kernel
  have name : afterDeclaration? (' ' :: ("m:val=\"".toList ++ (" XMLNS:M=\" m:x=\"".toList ++
      "y\"/></m:oMath>".toList))) = none := by decide +kernel
  have value : afterDeclaration? (" XMLNS:M=\" m:x=\"".toList ++ "y\"/></m:oMath>".toList) =
      some "y\"/></m:oMath>".toList := by decide +kernel
  have rest : removeDeclarations "y\"/></m:oMath>".toList = "y\"/></m:oMath>".toList := by
    simpa [removeDeclarations_nil] using removeDeclarations_solid (u := "y\"/></m:oMath>".toList) (by decide) []
  rw [text, wrap, innerMarkup, removeDeclarations_solid (by decide), removeDeclarations_of_none name,
    removeDeclarations_solid (by decide), removeDeclarations_of_some value, rest]
  decide +kernel

end Omml

end OfficeFormula
