import OfficeFormula.Proofs.Omml.Wrapper

/-!
# Written markup without its tags

Everything in the form of a tag is taken out of written markup without a look at what the tags are. What is
left of the written form of a tree is its written text (`stripTags_render`): a tag of the tree is taken out
whole, because a `>` inside it is written as a reference, and text is kept, because a `<` in it is one too.
-/

namespace OfficeFormula.Omml

/-! ## Tags and text -/

theorem removeTags_nil : removeTags [] = [] := by
  unfold removeTags
  split
  · next found => cases found
  · rfl

theorem removeTags_of_some {t rest : Text} (h : afterTag? t = some rest) : removeTags t = removeTags rest := by
  rw [removeTags]
  split
  · next found => rw [Option.some.inj (h.symm.trans found)]
  · next none => simp [h] at none

/-- A tag begins with a `<`. -/
theorem removeTags_cons {c : Char} (other : c ≠ '<') (t : Text) : removeTags (c :: t) = c :: removeTags t := by
  have none : afterTag? (c :: t) = none := by
    unfold afterTag?
    split
    · next found => exact absurd (List.cons.inj found).1 other
    · rfl
  rw [removeTags]
  split
  · next found => simp [none] at found
  · rfl

theorem removeTags_append {u : Text} (free : '<' ∉ u) (t : Text) : removeTags (u ++ t) = u ++ removeTags t := by
  induction u with
  | nil => rfl
  | cons c u ih =>
    rw [List.mem_cons, not_or] at free
    rw [List.cons_append, removeTags_cons (Ne.symm free.1), ih free.2, List.cons_append]

/-- A tag ends with the first `>`, which cannot be its only character. -/
theorem removeTags_tag {inside : Text} (ne : inside ≠ []) (free : '>' ∉ inside) (t : Text) :
    removeTags ('<' :: (inside ++ '>' :: t)) = removeTags t := by
  apply removeTags_of_some
  obtain ⟨c, cs, rfl⟩ := List.exists_cons_of_ne_nil ne
  have first : ((c :: cs) ++ '>' :: t).head? ≠ some '>' := by
    intro same
    obtain rfl : c = '>' := Option.some.inj same
    exact free List.mem_cons_self
  rw [afterTag?, if_neg first, Text.dropWhile_ne_append_cons free]

theorem removeTags_escape (s t : Text) : removeTags (escape s ++ t) = escape s ++ removeTags t :=
  removeTags_append (not_mem_escape (by decide) s) t

/-! ## Trees -/

/-- No tag of the tree is empty, and no name has a `>`. A `<` in a name does no harm, as it is inside a tag. -/
inductive Node.Tagged : Node → Prop where
  | element {tag : String} {attrs : List (String × Text)} {children : List Node} (ne : tag ≠ "")
      (name : '>' ∉ tag.toList) (keys : ∀ attr ∈ attrs, '>' ∉ attr.1.toList)
      (inside : ∀ n ∈ children, n.Tagged) : Tagged (.element tag attrs children)
  | text (t : Text) : Tagged (.text t)

section Head

variable {tag : String} {attrs : List (String × Text)}

/-- A start tag is taken out, and so is a tag that closes itself. -/
theorem removeTags_head (ne : tag ≠ "") (name : '>' ∉ tag.toList) (keys : ∀ attr ∈ attrs, '>' ∉ attr.1.toList)
    {slash : Text} (free : '>' ∉ slash) (t : Text) :
    removeTags (renderHead tag attrs ++ (slash ++ '>' :: t)) = removeTags t := by
  have inside : '>' ∉ tag.toList ++ attrs.flatMap renderAttr ++ slash := by
    simp only [List.mem_append, not_or]
    exact ⟨⟨name, tagEnd_not_mem_attrs keys⟩, free⟩
  have some : tag.toList ++ attrs.flatMap renderAttr ++ slash ≠ [] := by simp [ne]
  have removed := removeTags_tag some inside t
  rwa [renderHead, List.cons_append, List.cons_append, ← List.append_assoc, ← List.cons_append]

theorem removeTags_end (name : '>' ∉ tag.toList) (t : Text) :
    removeTags ("</".toList ++ (tag.toList ++ '>' :: t)) = removeTags t :=
  removeTags_tag (List.cons_ne_nil '/' tag.toList) (by simpa using name) t

end Head

theorem removeTags_renderAll {ns : List Node}
    (step : ∀ n ∈ ns, ∀ t, removeTags (n.render ++ t) = escape n.textContent ++ removeTags t) (t : Text) :
    removeTags (Node.renderAll ns ++ t) = escape (Node.textContentAll ns) ++ removeTags t := by
  induction ns with
  | nil => rfl
  | cons n ns ih =>
    rw [List.forall_mem_cons] at step
    have text : escape (n.textContent ++ Node.textContentAll ns) =
        escape n.textContent ++ escape (Node.textContentAll ns) := List.flatMap_append
    rw [Node.renderAll, List.append_assoc, step.1, ih step.2, Node.textContentAll, text, List.append_assoc]

/-- What is left of a tree is its text, whatever follows the tree. -/
theorem removeTags_render {n : Node} (tagged : n.Tagged) :
    ∀ t, removeTags (n.render ++ t) = escape n.textContent ++ removeTags t := by
  induction tagged with
  | text s => exact removeTags_escape s
  | @element tag attrs children ne name keys _ ih =>
    intro t
    cases children with
    | nil =>
      have single : (Node.element tag attrs []).render ++ t = renderHead tag attrs ++ (['/'] ++ '>' :: t) := by
        simp [Node.render]
      rw [single, removeTags_head ne name keys (by decide)]
      rfl
    | cons n ns =>
      have parts : (Node.element tag attrs (n :: ns)).render ++ t = renderHead tag attrs ++
          ([] ++ '>' :: (Node.renderAll (n :: ns) ++ ("</".toList ++ (tag.toList ++ '>' :: t)))) := by
        simp [Node.render, Node.renderAll]
      rw [parts, removeTags_head ne name keys (by simp), removeTags_renderAll ih, removeTags_end name]
      rfl

/-- Without its tags, the written form of a tree is its written text, with no blanks around it. -/
theorem stripTags_render {n : Node} (tagged : n.Tagged) : stripTags n.render = (escape n.textContent).trim := by
  have left := removeTags_render tagged []
  rw [List.append_nil, removeTags_nil, List.append_nil] at left
  rw [stripTags, left]

/-- A tree whose text and attributes look like tags. -/
def bracketedRun : Node :=
  .element "m:r" [("m:val", "</m:r>".toList)] [.text " <a>".toList, .element "m:t" [("x", ">".toList)] [],
    .text "&b</a>".toList, .element "m:t" [] [.text "> ".toList]]

theorem stripTags_render_bracketedRun :
    bracketedRun.Tagged ∧ bracketedRun.textContent = " <a>&b</a>> ".toList ∧
      stripTags bracketedRun.render = "&lt;a&gt;&amp;b&lt;/a&gt;&gt;".toList := by
  have tagged : bracketedRun.Tagged := by
    refine .element (by decide) (by decide) (by decide) ?_
    simp only [List.forall_mem_cons, List.not_mem_nil, false_implies, implies_true, and_true]
    refine ⟨.text _, .element (by decide) (by decide) (by decide) (by simp), .text _, ?_⟩
    exact .element (by decide) (by decide) (by simp) (by simpa using Node.Tagged.text _)
  have text : (escape bracketedRun.textContent).trim = "&lt;a&gt;&amp;b&lt;/a&gt;&gt;".toList := by decide +kernel
  exact ⟨tagged, by decide +kernel, (stripTags_render tagged).trans text⟩

end OfficeFormula.Omml
