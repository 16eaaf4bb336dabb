import OfficeFormula.Proofs.Omml.Quiet
import OfficeFormula.Proofs.Text.Search
import OfficeFormula.Proofs.Text.Words

/-!
# The content of a pasted formula

Markup is wrapped by taking it apart again as text. For the written form of a formula whose content is
quiet this gives the written content as it was (`wrap_formula`), and the namespace is then declared
once (`occurrences_template`).
-/

namespace OfficeFormula

namespace Omml

/-! ## What is found in quiet text -/

theorem isQuiet_of_suffix {u t : Text} (h : isQuiet t = true) (suffix : u <:+ t) : isQuiet u = true := by
  induction t with
  | nil => rw [List.suffix_nil.1 suffix]; rfl
  | cons c cs ih =>
    rcases List.suffix_cons_iff.1 suffix with rfl | suffix
    · exact h
    · rw [isQuiet, Bool.and_eq_true] at h
      exact ih h.2 suffix

theorem startsWithWord_of_isQuiet {t : Text} (h : isQuiet t = true) :
    Text.startsWithWord declarationWord t = false := by
  cases t with
  | nil => rfl
  | cons c cs =>
    rw [isQuiet, Bool.and_eq_true, Bool.not_eq_true'] at h
    exact h.1

/-- After the blanks of a declaration stands its word. -/
theorem afterDeclaration?_of_not_startsWithWord {c : Char} {cs : Text}
    (h : Text.startsWithWord declarationWord (cs.dropWhile isBlank) = false) :
    afterDeclaration? (c :: cs) = none := by
  simp only [Text.startsWithWord, Option.isSome_eq_false_iff, Option.isNone_iff_eq_none] at h
  rw [afterDeclaration?]
  split
  · change (Text.afterWord? declarationWord _ >>= _) = none
    rw [h]
    rfl
  · rfl

theorem afterDeclaration?_of_isQuiet {t : Text} (h : isQuiet t = true) : afterDeclaration? t = none := by
  cases t with
  | nil => rfl
  | cons c cs =>
    have suffix := (List.dropWhile_suffix isBlank).trans (List.suffix_cons c cs)
    exact afterDeclaration?_of_not_startsWithWord (startsWithWord_of_isQuiet (isQuiet_of_suffix h suffix))

theorem removeDeclarations_nil : removeDeclarations [] = [] := by
  rw [removeDeclarations]
  split
  · next found => simp [afterDeclaration?] at found
  · rfl

theorem removeDeclarations_of_some {t rest : Text} (h : afterDeclaration? t = some rest) :
    removeDeclarations t = removeDeclarations rest := by
  rw [removeDeclarations]
  split
  · next found => rw [Option.some.inj (h.symm.trans found)]
  · next found => simp [h] at found

theorem removeDeclarations_of_none {c : Char} {cs : Text} (h : afterDeclaration? (c :: cs) = none) :
    removeDeclarations (c :: cs) = c :: removeDeclarations cs := by
  rw [removeDeclarations]
  split
  · next found => simp [h] at found
  · rfl

/-- Nothing is removed from quiet markup. -/
theorem removeDeclarations_of_isQuiet {t : Text} (h : isQuiet t = true) : removeDeclarations t = t := by
  induction t with
  | nil => exact removeDeclarations_nil
  | cons c cs ih =>
    rw [removeDeclarations_of_none (afterDeclaration?_of_isQuiet h), ih (isQuiet_of_suffix h (List.suffix_cons c cs))]

/-- Quiet text has no declaration in it. -/
theorem occurrences_of_isQuiet {t : Text} (h : isQuiet t = true) :
    Text.occurrences declarationWord t = 0 := by
  induction t with
  | nil => rfl
  | cons c cs ih =>
    have starts : ¬Text.startsWith declarationWord (c :: cs) = true := by
      intro starts
      obtain ⟨rest, text⟩ := Text.startsWith_iff.1 starts
      have word := startsWithWord_of_isQuiet h
      rw [text, Text.startsWithWord, Text.afterWord?_append (by decide)] at word
      simp at word
    rw [Text.occurrences, if_neg starts, ih (isQuiet_of_suffix h (List.suffix_cons c cs))]

/-! ## Taking a formula apart -/

theorem isWordChar_tagEnd : isWordChar '>' = false ∧ isWordChar '/' = false ∧ isWordChar ' ' = false := by
  decide +kernel

/-- The name of a formula ends where a word ends. -/
theorem afterFormulaName?_append {c : Char} (ends : isWordChar c = false) (rest : Text) :
    afterFormulaName? ("<m:oMath".toList ++ c :: rest) = some (c :: rest) := by
  have word : endsWord (c :: rest) = true := by rw [endsWord, ends]; rfl
  rw [afterFormulaName?, Text.afterWord?_append (by decide)]
  exact if_pos word

/-- The name of the element ends where its attributes begin, and where the tag ends. -/
theorem afterFormulaName?_attrs (attrs : List (String × Text)) {c : Char} (ends : isWordChar c = false)
    (rest : Text) :
    afterFormulaName? ("<m:oMath".toList ++ (attrs.flatMap renderAttr ++ c :: rest)) =
      some (attrs.flatMap renderAttr ++ c :: rest) := by
  cases attrs with
  | nil => exact afterFormulaName?_append ends rest
  | cons attr attrs =>
    rw [List.flatMap_cons, renderAttr]
    simp only [List.cons_append]
    exact afterFormulaName?_append isWordChar_tagEnd.2.2 _

section Tag

variable {t head : Text} (free : '>' ∉ head)

include free

theorem dropWhile_tagEnd (rest : Text) : (head ++ '>' :: rest).dropWhile (· ≠ '>') = '>' :: rest := by
  have inside : ∀ c ∈ head, decide (c ≠ '>') = true := by
    intro c hc
    exact decide_eq_true fun h => free (h ▸ hc)
  rw [List.dropWhile_append_of_pos inside]
  rfl

theorem isEmptyFormula_of_single (name : afterFormulaName? t = some (head ++ ['/', '>'])) :
    isEmptyFormula t = true := by
  have split : head ++ ['/', '>'] = head ++ ['/'] ++ '>' :: [] := by simp
  have slash : '>' ∉ head ++ ['/'] := by simp [free]
  have drop := dropWhile_tagEnd slash []
  simp only [isEmptyFormula, name, split, drop]
  simp

/-- A tag with something behind it is not empty. -/
theorem isEmptyFormula_of_content {rest : Text} (name : afterFormulaName? t = some (head ++ '>' :: rest))
    (ne : rest ≠ []) : isEmptyFormula t = false := by
  have drop := dropWhile_tagEnd free rest
  simp only [isEmptyFormula, name, drop]
  simp [ne]

/-- The content of a formula stands between its tags. -/
theorem formulaContent?_of_closing {inner closing : Text}
    (name : afterFormulaName? t = some (head ++ '>' :: (inner ++ closing)))
    (length : closing.length = "</m:omath>".length)
    (closes : Text.afterWord? "</m:omath>".toList closing = some []) : formulaContent? t = some inner := by
  have split : (inner ++ closing).length - "</m:omath>".length = inner.length := by
    rw [List.length_append, length]
    omega
  have drop := dropWhile_tagEnd free (inner ++ closing)
  rw [formulaContent?, name]
  simp only [Option.bind_eq_bind, Option.bind_some, drop, split, List.drop_left, closes, if_true, List.take_left]

end Tag

variable {ns : List Node}

theorem quiet_formula (quiet : ∀ n ∈ ns, n.Quiet) : (formula ns).Quiet := quiet_element (by decide) quiet

theorem tagEnd_not_mem_attrs {attrs : List (String × Text)} (names : ∀ attr ∈ attrs, '>' ∉ attr.1.toList) :
    '>' ∉ attrs.flatMap renderAttr := by
  intro h
  obtain ⟨attr, hattr, h⟩ := List.mem_flatMap.1 h
  have value : '>' ∉ escape attr.2 := not_mem_escape (by decide) attr.2
  simp [renderAttr, names attr hattr, value] at h

/-- What is taken out of a text that is a written formula element once its declarations are removed: the
content of the element. -/
theorem innerMarkup_of_clean {markup : Text} {attrs : List (String × Text)}
    (clean : removeDeclarations markup = (Node.element "m:oMath" attrs ns).render)
    (names : ∀ attr ∈ attrs, '>' ∉ attr.1.toList) : innerMarkup markup = Node.renderAll ns := by
  have free := tagEnd_not_mem_attrs names
  have opening : '<' :: "m:oMath".toList = "<m:oMath".toList := by decide
  cases ns with
  | nil =>
    have text : removeDeclarations markup = "<m:oMath".toList ++ (attrs.flatMap renderAttr ++ ['/', '>']) := by
      rw [clean, Node.render, renderHead, opening, List.append_assoc]
      rfl
    have enclosed : "<m:oMath".toList ++ (attrs.flatMap renderAttr ++ ['/', '>']) =
        '<' :: ("m:oMath".toList ++ attrs.flatMap renderAttr ++ ['/'] ++ ['>']) := by
      rw [← opening]
      simp
    have name := afterFormulaName?_attrs attrs isWordChar_tagEnd.2.1 ['>']
    rw [innerMarkup, text, enclosed, Text.trim_enclosed (by decide) (by decide), ← enclosed,
      isEmptyFormula_of_single free name]
    rfl
  | cons n ns =>
    have text : removeDeclarations markup = "<m:oMath".toList ++
        (attrs.flatMap renderAttr ++ '>' :: (Node.renderAll (n :: ns) ++ "</m:oMath>".toList)) := by
      have closing : "</m:oMath>".toList = "</".toList ++ ("m:oMath".toList ++ ['>']) := by decide
      rw [clean, Node.render, renderHead, opening, closing, Node.renderAll]
      simp only [List.append_assoc, List.cons_append]
    generalize Node.renderAll (n :: ns) = inner at text ⊢
    have enclosed : "<m:oMath".toList ++ (attrs.flatMap renderAttr ++ '>' :: (inner ++ "</m:oMath>".toList)) =
        '<' :: ("m:oMath".toList ++ attrs.flatMap renderAttr ++ ['>'] ++ inner ++ "</m:oMath".toList ++ ['>']) := by
      have closing : "</m:oMath>".toList = "</m:oMath".toList ++ ['>'] := by decide
      rw [← opening, closing]
      simp
    have name := afterFormulaName?_attrs attrs isWordChar_tagEnd.1 (inner ++ "</m:oMath>".toList)
    have length : "</m:oMath>".toList.length = "</m:omath>".length := by decide
    have closes : Text.afterWord? "</m:omath>".toList "</m:oMath>".toList = some [] := by decide
    have content := formulaContent?_of_closing free name length closes
    have full := isEmptyFormula_of_content free name (by simp)
    rw [innerMarkup, text, enclosed, Text.trim_enclosed (by decide) (by decide), ← enclosed, full, content]
    rfl

/-- The content of a formula is what stands between its tags. -/
theorem innerMarkup_formula (quiet : ∀ n ∈ ns, n.Quiet) :
    innerMarkup (formula ns).render = Node.renderAll ns := by
  have same : removeDeclarations (formula ns).render = (formula ns).render := by
    apply removeDeclarations_of_isQuiet
    simpa using ((quiet_formula quiet).render [] (QuietAfter.of_quote_not_mem (by simp))).quiet
  have tag : "m:" ++ "oMath" = "m:oMath" := by decide
  have element : formula ns = .element "m:oMath" [] ns := by rw [formula, Omml.element, tag]
  exact innerMarkup_of_clean (same.trans (by rw [element])) (by simp)

/-- Wrapping the written form of a formula keeps its content. -/
theorem wrap_formula (quiet : ∀ n ∈ ns, n.Quiet) (display : Bool) :
    wrap (formula ns).render display = template display (Node.renderAll ns) := by
  rw [wrap, innerMarkup_formula quiet]

theorem wrap_fallback (t : Text) (display : Bool) :
    wrap (fallback t) display = template display (Node.renderAll [run t false]) :=
  wrap_formula (by simpa using quiet_run t false) display

theorem mem_render_element {tag : String} {attrs : List (String × Text)} {n : Node} {ns : List Node}
    {c : Char} (h : c ∈ n.render) : c ∈ (Node.element tag attrs (n :: ns)).render := by
  rw [Node.render]
  simp only [List.mem_append, List.mem_cons, h, true_or, or_true]

/-- A character that needs no reference is found again in the run that is pasted for a text. -/
theorem mem_wrap_fallback {t : Text} {c : Char} (h : c ∈ t) (plain : escapeChar c = [c]) :
    c ∈ wrap (fallback t) false := by
  have written : c ∈ (Node.text t).render := by
    rw [Node.render]
    exact List.mem_flatMap.2 ⟨c, h, by rw [plain]; exact List.mem_singleton_self c⟩
  have inside : c ∈ Node.renderAll [run t false] := by
    rw [Node.renderAll, run, runText, if_neg (List.ne_nil_of_mem h)]
    exact List.mem_append_left _ (mem_render_element (mem_render_element written))
  rw [wrap_fallback, template, if_neg (by simp), formulaElement, if_neg (List.ne_nil_of_mem inside)]
  simp only [List.mem_append, List.mem_cons, inside, true_or, or_true]

/-! ## The one declaration -/

theorem quietAfter_formulaElement (quiet : ∀ n ∈ ns, n.Quiet) {t : Text} (h : QuietAfter t) :
    QuietAfter (formulaElement [] (Node.renderAll ns) ++ t) := by
  rw [formulaElement]
  split
  · exact QuietAfter.append (by decide) h
  · rw [List.append_nil, List.append_assoc, List.append_assoc]
    have closing : QuietAfter ("</m:oMath>".toList ++ t) := QuietAfter.append (by decide) h
    apply QuietAfter.append (by decide)
    apply QuietAfter.bar (by decide)
    exact (quietAfter_renderAll quiet closing).quiet

theorem occurrences_declaration :
    Text.occurrences declarationWord ("<m:oMath".toList ++ declaration) = 1 ∧
      Text.occurrences declarationWord ("<m:oMathPara".toList ++ declaration) = 1 := by
  constructor <;> decide +kernel

/-- A declaration does not reach over the end of the tag. -/
theorem occurrences_of_isBar {start rest : Text} (one : Text.occurrences declarationWord start = 1)
    {c : Char} (bar : c ∉ declarationWord) (quiet : isQuiet rest = true) :
    Text.occurrences declarationWord (start ++ c :: rest) = 1 := by
  rw [Text.occurrences_append_cons (by decide) bar, one, occurrences_of_isQuiet quiet]

/-- A pasted formula declares the namespace once. -/
theorem occurrences_template (quiet : ∀ n ∈ ns, n.Quiet) (display : Bool) :
    Text.occurrences declarationWord (template display (Node.renderAll ns)) = 1 := by
  cases display with
  | true =>
    have closing : QuietAfter "</m:oMathPara>".toList := QuietAfter.of_quote_not_mem (by decide)
    rw [template, if_pos rfl, List.append_assoc, List.cons_append]
    exact occurrences_of_isBar occurrences_declaration.2 (by decide)
      (quietAfter_formulaElement quiet closing).quiet
  | false =>
    rw [template, if_neg (by decide), formulaElement]
    split
    · exact occurrences_of_isBar occurrences_declaration.1 (c := '/') (by decide)
        (isQuiet_of_quote_not_mem (by decide))
    · have closing : QuietAfter "</m:oMath>".toList := QuietAfter.of_quote_not_mem (by decide)
      rw [List.append_assoc, List.cons_append]
      exact occurrences_of_isBar occurrences_declaration.1 (by decide)
        (quietAfter_renderAll quiet closing).quiet

end Omml

end OfficeFormula
