import OfficeFormula.Omml.Wrapper
import OfficeFormula.Proofs.Omml.ContentModel
import OfficeFormula.Proofs.Text.Fold

/-!
# Markup in which nothing looks like a declaration

Declarations are looked for in written markup, whose text and attribute values may be anything. The
word of a declaration ends with a quote. Written text has no quotes, and those of an attribute stand
after its name and after its value. So it is enough that no single attribute looks like a declaration
(`Node.Quiet`): then nothing in the written tree does (`Node.Quiet.render`). The content model leaves
few attributes to a formula, and they are quiet (`quiet_commonRule`).
-/

namespace OfficeFormula

/-! ## Keywords -/

namespace Text

theorem startsWithWord_cons {w c : Char} {ws cs : Text} :
    startsWithWord (w :: ws) (c :: cs) = (decide (w = foldCase c) && startsWithWord ws cs) := by
  by_cases h : w = foldCase c
  · simp [startsWithWord, afterWord?, h]
  · simp [startsWithWord, afterWord?, h]

/-- A keyword begins only where all its characters are. -/
theorem exists_mem_of_startsWithWord {word t : Text} (h : startsWithWord word t = true) {w : Char}
    (hw : w ∈ word) : ∃ c ∈ t, foldCase c = w := by
  obtain ⟨rest, after⟩ := Option.isSome_iff_exists.1 h
  obtain ⟨found, rfl, folded⟩ := exists_append_of_afterWord? after
  rw [← folded] at hw
  obtain ⟨c, hc, rfl⟩ := List.mem_map.1 hw
  exact ⟨c, List.mem_append_left rest hc, rfl⟩

/-- A character that can only be the last of a keyword ends the search for it. -/
theorem startsWithWord_append_cons {word : Text} {c : Char} (bar : foldCase c ∉ word.dropLast)
    (u t : Text) : startsWithWord word (u ++ c :: t) = startsWithWord word (u ++ [c]) := by
  induction word generalizing u with
  | nil => rfl
  | cons w ws ih =>
    cases ws with
    | nil =>
      cases u with
      | nil => rw [List.nil_append, List.nil_append, startsWithWord_cons, startsWithWord_cons]; rfl
      | cons d u => rw [List.cons_append, List.cons_append, startsWithWord_cons, startsWithWord_cons]; rfl
    | cons w' ws =>
      rw [List.dropLast_cons_cons, List.mem_cons, not_or] at bar
      cases u with
      | nil =>
        have other : ¬w = foldCase c := fun h => bar.1 h.symm
        simp [startsWithWord_cons, other]
      | cons d u =>
        rw [List.cons_append, List.cons_append, startsWithWord_cons, startsWithWord_cons, ih bar.2]

end Text

namespace Omml

/-! ## Quiet text -/

/-- The word that a declaration of the formula namespace begins with. -/
def declarationWord : Text := "xmlns:m=\"".toList

/-- The word of a declaration stands nowhere in the text, in whatever case. -/
def isQuiet : Text → Bool
  | [] => true
  | c :: cs => !Text.startsWithWord declarationWord (c :: cs) && isQuiet cs

theorem isQuiet_append_cons {c : Char} (bar : foldCase c ∉ declarationWord.dropLast) (u t : Text) :
    isQuiet (u ++ c :: t) = (isQuiet (u ++ [c]) && isQuiet t) := by
  induction u with
  | nil =>
    have first := Text.startsWithWord_append_cons bar [] t
    simp only [List.nil_append] at first ⊢
    simp [isQuiet, first]
  | cons d u ih =>
    have first := Text.startsWithWord_append_cons bar (d :: u) t
    simp only [List.cons_append] at first ⊢
    simp [isQuiet, first, ih, Bool.and_assoc]

/-- Without a quote there is no declaration. -/
theorem isQuiet_of_quote_not_mem {t : Text} (free : '"' ∉ t) : isQuiet t = true := by
  induction t with
  | nil => rfl
  | cons c cs ih =>
    rw [isQuiet, Bool.and_eq_true, Bool.not_eq_true']
    constructor
    · cases h : Text.startsWithWord declarationWord (c :: cs) with
      | false => rfl
      | true =>
        obtain ⟨d, hd, quote⟩ := Text.exists_mem_of_startsWithWord h (w := '"') (by decide)
        rw [eq_of_foldCase_eq quote (by decide)] at hd
        exact absurd hd free
    · exact ih fun h => free (List.mem_cons_of_mem c h)

/-- A character that is in no declaration, such as those around a tag and an attribute. -/
def isBar (c : Char) : Bool := foldCase c ∉ declarationWord

theorem isQuiet_append_bar {c : Char} (bar : isBar c = true) {v : Text} (free : '"' ∉ v) (t : Text) :
    isQuiet (v ++ c :: t) = isQuiet t := by
  have bar : foldCase c ∉ declarationWord := of_decide_eq_true bar
  have quote : '"' ∉ v ++ [c] := by
    rw [List.mem_append, List.mem_singleton]
    rintro (h | rfl)
    · exact free h
    · exact bar (by decide)
  rw [isQuiet_append_cons fun h => bar ((List.dropLast_sublist _).subset h), isQuiet_of_quote_not_mem quote,
    Bool.true_and]

/-- The text is quiet, whatever stands before it without quotes. -/
def QuietAfter (t : Text) : Prop := ∀ v : Text, '"' ∉ v → isQuiet (v ++ t) = true

namespace QuietAfter

variable {t : Text}

theorem quiet (h : QuietAfter t) : isQuiet t = true := h [] (by simp)

theorem of_quote_not_mem (free : '"' ∉ t) : QuietAfter t := by
  intro v free'
  apply isQuiet_of_quote_not_mem
  rw [List.mem_append, not_or]
  exact ⟨free', free⟩

/-- A character that is in no declaration keeps what follows apart from what is before. -/
theorem bar {c : Char} (bar : isBar c = true) (h : isQuiet t = true) : QuietAfter (c :: t) := by
  intro v free
  rw [isQuiet_append_bar bar free]
  exact h

theorem append {u : Text} (free : '"' ∉ u) (h : QuietAfter t) : QuietAfter (u ++ t) := by
  intro v free'
  rw [← List.append_assoc]
  apply h
  rw [List.mem_append, not_or]
  exact ⟨free', free⟩

end QuietAfter

/-! ## Quiet trees -/

/-- Nothing in the written attribute looks like a declaration. -/
def isQuietAttr (attr : String × Text) : Bool := isQuiet (renderAttr attr)

/-- No attribute of the tree looks like a declaration. -/
inductive Node.Quiet : Node → Prop where
  | element {tag : String} {attrs : List (String × Text)} {children : List Node}
      (free : '"' ∉ tag.toList) (quiet : ∀ attr ∈ attrs, isQuietAttr attr = true)
      (h : ∀ n ∈ children, n.Quiet) : Quiet (.element tag attrs children)
  | text (t : Text) : Quiet (.text t)

theorem QuietAfter.attrs {attrs : List (String × Text)} (quiet : ∀ attr ∈ attrs, isQuietAttr attr = true)
    {t : Text} (h : QuietAfter t) : QuietAfter (attrs.flatMap renderAttr ++ t) := by
  induction attrs with
  | nil => exact h
  | cons attr attrs ih =>
    have more := ih fun a ha => quiet a (List.mem_cons_of_mem attr ha)
    have here := quiet attr List.mem_cons_self
    -- The attribute is a blank, and quiet text up to its last quote.
    obtain ⟨body, text⟩ : ∃ body, renderAttr attr = ' ' :: (body ++ ['"']) :=
      ⟨attr.1.toList ++ "=\"".toList ++ escape attr.2, by simp [renderAttr]⟩
    have inside : isQuiet (body ++ ['"']) = true := by
      rw [isQuietAttr, text] at here
      rwa [← isQuiet_append_bar (v := []) (c := ' ') (by decide) (by simp)]
    rw [List.flatMap_cons, text, List.append_assoc, List.cons_append, List.append_assoc,
      List.singleton_append]
    apply QuietAfter.bar (by decide)
    rw [isQuiet_append_cons (by decide), inside, more.quiet]
    rfl

theorem QuietAfter.head {tag : String} {attrs : List (String × Text)} (free : '"' ∉ tag.toList)
    (quiet : ∀ attr ∈ attrs, isQuietAttr attr = true) {t : Text} (h : QuietAfter t) :
    QuietAfter (renderHead tag attrs ++ t) := by
  rw [renderHead, List.cons_append, List.cons_append, List.append_assoc]
  apply QuietAfter.bar (by decide)
  exact (QuietAfter.append free (QuietAfter.attrs quiet h)).quiet

theorem QuietAfter.renderAll {ns : List Node}
    (step : ∀ n ∈ ns, ∀ t, QuietAfter t → QuietAfter (n.render ++ t)) {t : Text} (h : QuietAfter t) :
    QuietAfter (Node.renderAll ns ++ t) := by
  induction ns with
  | nil => exact h
  | cons n ns ih =>
    rw [Node.renderAll, List.append_assoc]
    apply step n List.mem_cons_self
    exact ih fun m hm => step m (List.mem_cons_of_mem n hm)

/-- The written form of a tree is quiet if its attributes are. -/
theorem Node.Quiet.render {n : Node} (quiet : n.Quiet) : ∀ t, QuietAfter t → QuietAfter (n.render ++ t) := by
  induction quiet with
  | text s =>
    intro t h
    exact QuietAfter.append (not_mem_escape (by decide) s) h
  | @element tag attrs children free attrsQuiet _ ih =>
    intro t h
    cases children with
    | nil =>
      rw [Node.render, List.append_assoc]
      apply QuietAfter.head free attrsQuiet
      exact QuietAfter.append (by decide) h
    | cons n ns =>
      have text : (Node.element tag attrs (n :: ns)).render ++ t =
          renderHead tag attrs ++ '>' :: (Node.renderAll (n :: ns) ++
            ("</".toList ++ (tag.toList ++ (['>'] ++ t)))) := by
        simp [Node.render, Node.renderAll]
      have closing : QuietAfter ("</".toList ++ (tag.toList ++ (['>'] ++ t))) :=
        QuietAfter.append (by decide) (QuietAfter.append free (QuietAfter.append (by decide) h))
      rw [text]
      apply QuietAfter.head free attrsQuiet
      apply QuietAfter.bar (by decide)
      exact (QuietAfter.renderAll ih closing).quiet

/-- Quiet trees are written as quiet text. -/
theorem quietAfter_renderAll {ns : List Node} (quiet : ∀ n ∈ ns, n.Quiet) {t : Text} (h : QuietAfter t) :
    QuietAfter (Node.renderAll ns ++ t) :=
  QuietAfter.renderAll (fun n hn => (quiet n hn).render) h

/-! ## The structures of a formula -/

theorem isQuiet_of_length_lt {t : Text} (short : t.length < declarationWord.length) :
    isQuiet t = true := by
  induction t with
  | nil => rfl
  | cons c cs ih =>
    rw [isQuiet, Bool.and_eq_true, Bool.not_eq_true']
    constructor
    · cases h : Text.startsWithWord declarationWord (c :: cs) with
      | false => rfl
      | true =>
        obtain ⟨rest, after⟩ := Option.isSome_iff_exists.1 h
        obtain ⟨found, text, folded⟩ := Text.exists_append_of_afterWord? after
        rw [text, ← folded, List.length_append, List.length_map] at short
        omega
    · apply ih
      rw [List.length_cons] at short
      omega

theorem isQuietAttr_glyph (c : Char) : isQuietAttr ("m:val", [c]) = true := by
  have text : renderAttr ("m:val", [c]) = " m:val=".toList ++ '"' :: (escapeChar c ++ ['"']) := by
    simp [renderAttr, escape]
  have short : (escapeChar c).length ≤ 6 := by
    unfold escapeChar
    split <;> simp
  have value : isQuiet (escapeChar c ++ ['"']) = true := by
    apply isQuiet_of_length_lt
    rw [List.length_append, show declarationWord.length = 9 from rfl, List.length_singleton]
    omega
  rw [isQuietAttr, text, isQuiet_append_cons (by decide), value, Bool.and_true]
  decide

section Structures

variable {ns ms : List Node}

theorem quiet_element {tag : String} (free : '"' ∉ ("m:" ++ tag).toList) (h : ∀ n ∈ ns, n.Quiet) :
    (element tag ns).Quiet :=
  .element free (by simp) h

theorem quiet_property {tag : String} {value : Text} (free : '"' ∉ ("m:" ++ tag).toList)
    (h : isQuietAttr ("m:val", value) = true) : (property tag value).Quiet :=
  .element free (by simpa using h) (by simp)

theorem quiet_runText {t : Node} (text : IsRunText t) : t.Quiet := by
  cases text with
  | nothing => exact .element (by decide) (by simp) (by simp)
  | @string t ne attrs blanks =>
    refine .element (by decide) ?_ (by simpa using Node.Quiet.text t)
    rcases blanks with rfl | rfl
    · simp
    · simp only [List.mem_singleton, forall_eq]
      decide

/-- The mark of upright text. -/
theorem quiet_upright : (element "rPr" [property "sty" ['p']]).Quiet :=
  quiet_element (by decide) (by simpa using quiet_property (by decide) (isQuietAttr_glyph 'p'))

/-- A run is quiet whatever its text is, because quotes in it are escaped. -/
theorem quiet_run (t : Text) (plain : Bool) : (run t plain).Quiet := by
  have text := quiet_runText (isRunText_runText t)
  refine .element (by decide) (by simp) ?_
  cases plain with
  | false => simpa using text
  | true => simpa using ⟨quiet_upright, text⟩

/-- An element with two slots. -/
theorem quiet_pair {tag first second : String} (free : '"' ∉ ("m:" ++ tag).toList)
    (hfirst : '"' ∉ ("m:" ++ first).toList) (hsecond : '"' ∉ ("m:" ++ second).toList)
    (h : ∀ slot ∈ [ns, ms], ∀ n ∈ slot, n.Quiet) :
    (element tag [element first ns, element second ms]).Quiet := by
  simp only [List.forall_mem_cons] at h
  apply quiet_element free
  simpa using ⟨quiet_element hfirst h.1, quiet_element hsecond h.2.1⟩

theorem quiet_operatorMarks : ∀ p ∈ operatorMarks, p.Quiet := by
  simp only [operatorMarks, List.forall_mem_cons]
  refine ⟨?_, ?_, ?_, ?_, by simp⟩
  · exact quiet_property (by decide) (by decide)
  · exact quiet_property (by decide) (by decide)
  · exact quiet_property (by decide) (isQuietAttr_glyph '1')
  · exact quiet_property (by decide) (isQuietAttr_glyph '1')

/-- A structure is quiet if all that stands in its slots is. -/
theorem quiet_commonRule {glyphs : List Char} {n : Node} {slots : List (List Node)}
    (shape : CommonRule glyphs n slots) (inside : ∀ slot ∈ slots, ∀ m ∈ slot, m.Quiet) : n.Quiet := by
  cases shape with
  | run text => exact quiet_element (by decide) (by simpa using quiet_runText text)
  | fraction num den => exact quiet_pair (by decide) (by decide) (by decide) inside
  | squareRoot base =>
    have hidden : (element "radPr" [property "degHide" ['1']]).Quiet :=
      quiet_element (by decide) (by simpa using quiet_property (by decide) (isQuietAttr_glyph '1'))
    simp only [List.forall_mem_cons] at inside
    apply quiet_element (by decide)
    simpa using ⟨hidden, quiet_element (by decide) (by simp), quiet_element (by decide) inside.1⟩
  | root degree base => exact quiet_pair (by decide) (by decide) (by decide) inside
  | subscript base sub => exact quiet_pair (by decide) (by decide) (by decide) inside
  | superscript base sup => exact quiet_pair (by decide) (by decide) (by decide) inside
  | subSuperscript base sub sup =>
    simp only [List.forall_mem_cons] at inside
    apply quiet_element (by decide)
    simpa using ⟨quiet_element (by decide) inside.1, quiet_element (by decide) inside.2.1,
      quiet_element (by decide) inside.2.2.1⟩
  | @nary glyph known marks listed sub sup hiddenSub hiddenSup body =>
    simp only [List.forall_mem_cons] at inside
    have properties : (element "naryPr" (property "chr" [glyph] :: marks)).Quiet := by
      apply quiet_element (by decide)
      rw [List.forall_mem_cons]
      exact ⟨quiet_property (by decide) (isQuietAttr_glyph glyph),
        fun p hp => quiet_operatorMarks p (listed p hp)⟩
    apply quiet_element (by decide)
    simpa using ⟨properties, quiet_element (by decide) inside.1, quiet_element (by decide) inside.2.1,
      quiet_element (by decide) inside.2.2.1⟩

theorem quiet_matrix {rows : List (List (List Node))} (h : ∀ cell ∈ rows.flatten, ∀ n ∈ cell, n.Quiet) :
    (matrix rows).Quiet := by
  apply quiet_element (by decide)
  intro row hrow
  obtain ⟨cells, hcells, rfl⟩ := List.mem_map.1 hrow
  apply quiet_element (by decide)
  intro cell hcell
  obtain ⟨nodes, hnodes, rfl⟩ := List.mem_map.1 hcell
  exact quiet_element (by decide) (h nodes (List.mem_flatten.2 ⟨cells, hcells, hnodes⟩))

/-- What conforms to a rule whose structures are quiet is quiet. -/
theorem Conforms.quiet {rule : Rule}
    (step : ∀ {n slots}, rule n slots → (∀ slot ∈ slots, ∀ m ∈ slot, m.Quiet) → n.Quiet) {n : Node}
    (conforms : Conforms rule n) : n.Quiet := by
  induction conforms with
  | of_rule shape _ ih => exact step shape ih

end Structures

end Omml

end OfficeFormula
