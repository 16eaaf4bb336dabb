import Mathlib.Logic.Relation
import OfficeFormula.MathML.Compile
import OfficeFormula.Proofs.MathML.Symbols
import OfficeFormula.Proofs.Omml.Wrapper

/-!
# The layout of MathML

Blanks and comments between elements, and elements that only group, are layout (`Relaid`). Each element is
read in up to three ways: its content is converted, its operands are counted and converted one by one, and
the text of an operand tells whether it is a big operator or an accent. None of these sees the layout
(`Relaid.agree`). So a formula is converted to the same markup, with the same warnings, however it is laid
out, on every host that follows the conversion to its end (`compile_relaid`).
-/

namespace OfficeFormula.MathML

open Markup (Node)
open Text (visible)

/-! ## Changes of layout -/

/-- The elements that only group their content. -/
def groupings : List String := ["mrow", "mstyle", "mpadded"]

/-- The elements that look for rows or cells among their content, by name. -/
def tableParts : List String := ["mtable", "mtr", "mlabeledtr"]

/-- Nodes between elements that nothing is printed for. -/
def isSpacing : Node → Bool
  | .text t => t.all isBlank
  | .comment _ => true
  | .element _ _ _ => false

/-- One change of layout in the content of an element, at any depth: an element is put into a group, or a
blank or a comment is put in. The element is known by the name `parent`. Its content is `loose` unless it
stands in a token, where blanks belong to the text. -/
inductive Relaid : Bool → String → List Node → List Node → Prop where
  | group {loose : Bool} {parent : String} (outside : parent ∉ tableParts) {wrapper : String}
      (grouping : plainName wrapper ∈ groupings) (attrs : List Markup.Attr) {n : Node}
      (element : n.isElement = true) (ns : List Node) :
      Relaid loose parent (n :: ns) (.element wrapper attrs [n] :: ns)
  | space {parent : String} {n : Node} (spacing : isSpacing n = true) (ns : List Node) :
      Relaid true parent ns (n :: ns)
  | inside {loose : Bool} {parent name : String} {attrs : List Markup.Attr} {children children' : List Node}
      (h : Relaid (loose && kindOf (plainName name) ≠ .token) (plainName name) children children')
      (ns : List Node) :
      Relaid loose parent (.element name attrs children :: ns) (.element name attrs children' :: ns)
  | later {loose : Bool} {parent : String} (n : Node) {ns ns' : List Node} (h : Relaid loose parent ns ns') :
      Relaid loose parent (n :: ns) (n :: ns')

/-- The content of an element outside tokens is loose, unless the element is a token. -/
theorem Relaid.under {parent name : String} {attrs : List Markup.Attr} {children children' : List Node}
    (kind : kindOf (plainName name) ≠ .token) (h : Relaid true (plainName name) children children')
    (ns : List Node) :
    Relaid true parent (.element name attrs children :: ns) (.element name attrs children' :: ns) :=
  .inside (by simpa [kind] using h) ns

/-! ## What is read of the operands -/

/-- The only character of a text. -/
def sole? : Text → Option Char
  | [c] => some c
  | _ => none

theorem sole?_eq_some_iff {t : Text} {c : Char} : sole? t = some c ↔ t = [c] := by
  unfold sole?
  split <;> simp_all

/-- Blanks do not matter to whether a trimmed text is a single character. -/
theorem sole?_trim (t : Text) : sole? t.trim = sole? (visible t) := by
  ext c
  rw [sole?_eq_some_iff, sole?_eq_some_iff, Text.trim_eq_singleton_iff]

/-- What an element with operands reads of each: its markup, and its text up to blanks. -/
def outline (n : Node) : Converted × Text := (convert n, visible n.textContent)

/-- Operands are read through their outlines only. -/
theorem convertElements_eq_outlines (ns : List Node) :
    convertElements ns = ((elements ns).map outline).map Prod.fst := by
  rw [convertElements_eq_map, List.map_map]
  rfl

theorem convertFirst_eq_outlines (ns : List Node) :
    convertFirst ns = (((elements ns).map outline).head?.map Prod.fst).getD .empty := by
  induction ns with
  | nil => rw [convertFirst]; rfl
  | cons n ns ih =>
    cases n with
    | element name attrs children => rw [convertFirst]; rfl
    | text t =>
      simp only [convertFirst]
      exact ih
    | comment t =>
      simp only [convertFirst]
      exact ih

/-- So is whether one of them is a big operator. -/
theorem bigOperator?_eq (n : Node) :
    bigOperator? n = (sole? (outline n).2).filter bigOperators.contains := by
  rw [outline, ← sole?_trim, bigOperator?, trimmedText]
  generalize n.textContent.trim = t
  rcases t with _ | ⟨c, _ | ⟨d, t⟩⟩ <;> rfl

theorem baseOperator?_eq_outlines (ns : List Node) :
    baseOperator? ns =
      ((elements ns).map outline).head?.bind fun o => (sole? o.2).filter bigOperators.contains := by
  rw [baseOperator?, List.head?_map, Option.bind_map]
  exact congrArg _ (funext bigOperator?_eq)

theorem accentGlyph?_eq_outlines (ns : List Node) :
    accentGlyph? ns = ((elements ns).map outline)[1]?.bind fun o => sole? o.2 := by
  unfold accentGlyph?
  split
  · next base upper more operands =>
    rw [operands]
    change _ = sole? (visible upper.textContent)
    rw [← sole?_trim]
    rfl
  · next few =>
    cases operands : elements ns with
    | nil => rfl
    | cons base more =>
      cases more with
      | nil => rfl
      | cons upper more => exact absurd operands (few base upper more)

/-! ## Content that is read alike -/

/-- An element reads the same from either content. Inside a token that is the text itself. -/
structure Agree (loose : Bool) (parent : String) (ns ns' : List Node) : Prop where
  content : convertContent ns = convertContent ns'
  operands : (elements ns).map outline = (elements ns').map outline
  rows : parent = "mtable" → convertRows ns = convertRows ns'
  cells : parent = "mtr" ∨ parent = "mlabeledtr" → convertCells ns = convertCells ns'
  text : visible (Node.textContentAll ns) = visible (Node.textContentAll ns')
  verbatim : loose = false → Node.textContentAll ns = Node.textContentAll ns'

theorem eq_of_kindOf_table {name : String} (h : kindOf name = .table) : name = "mtable" := by
  have listed : ∀ entry ∈ kinds, entry.2 = .table → entry.1 = "mtable" := by decide
  cases found : kinds.lookup name with
  | none => simp [kindOf, found] at h
  | some kind =>
    obtain ⟨before, after, split, _⟩ := List.lookup_eq_some_iff.1 found
    exact listed (name, kind) (by simp [split]) (by simpa [kindOf, found] using h)

theorem kindOf_grouping {name : String} (h : name ∈ groupings) : kindOf name = .row := by
  have listed : ∀ name ∈ groupings, kindOf name = .row := by decide
  exact listed name h

section Element

variable {loose : Bool} {name : String} {children children' : List Node}

/-- An element with content that is read alike is converted alike. -/
theorem Agree.convert_element
    (agree : Agree (loose && kindOf (plainName name) ≠ .token) (plainName name) children children')
    (attrs : List Markup.Attr) :
    convert (.element name attrs children) = convert (.element name attrs children') := by
  have converted : convertElements children = convertElements children' := by
    rw [convertElements_eq_outlines, convertElements_eq_outlines, agree.operands]
  have first : convertFirst children = convertFirst children' := by
    rw [convertFirst_eq_outlines, convertFirst_eq_outlines, agree.operands]
  have operator : baseOperator? children = baseOperator? children' := by
    rw [baseOperator?_eq_outlines, baseOperator?_eq_outlines, agree.operands]
  have accent : accentGlyph? children = accentGlyph? children' := by
    rw [accentGlyph?_eq_outlines, accentGlyph?_eq_outlines, agree.operands]
  rw [convert, convert]
  cases kind : kindOf (plainName name) with
  | token =>
    have text := agree.verbatim (by simp [kind])
    simp only [text]
  | table =>
    have rows := agree.rows (eq_of_kindOf_table kind)
    simp only [rows]
  | ignored | row | superscript | subscript | subSuperscript | fraction | squareRoot | root | lower | upper
    | lowerUpper | fenced | space | semantics | unknown =>
    simp only [converted, first, operator, accent, agree.content]

end Element

/-! ## Each change of layout -/

theorem append_empty (c : Converted) : c ++ Converted.empty = c := by
  obtain ⟨nodes, unknown⟩ := c
  change Converted.mk (nodes ++ []) (unknown ++ []) = ⟨nodes, unknown⟩
  rw [List.append_nil, List.append_nil]

theorem empty_append (c : Converted) : Converted.empty ++ c = c := rfl

/-- A grouping element around one operand has the outline of the operand. -/
theorem outline_group {wrapper : String} (grouping : plainName wrapper ∈ groupings) (attrs : List Markup.Attr)
    (n : Node) : outline (.element wrapper attrs [n]) = outline n := by
  have converted : convert (.element wrapper attrs [n]) = convert n := by
    rw [convert]
    simp only [kindOf_grouping grouping]
    rw [convertContent, convertContent, append_empty]
  have text : (Node.element wrapper attrs [n]).textContent = n.textContent := by
    rw [Node.textContent, Node.textContentAll, Node.textContentAll, List.append_nil]
  rw [outline, converted, text, outline]

namespace Agree

variable {loose : Bool} {parent : String} {ns ns' : List Node}

/-- Elements that are read alike may stand for one another where no rows or cells are looked for. -/
theorem cons_element {n n' : Node} (element : n.isElement = true) (element' : n'.isElement = true)
    (same : outline n = outline n') (text : loose = false → n.textContent = n'.textContent)
    (rows : parent = "mtable" → convertRows (n :: ns) = convertRows (n' :: ns))
    (cells : parent = "mtr" ∨ parent = "mlabeledtr" → convertCells (n :: ns) = convertCells (n' :: ns)) :
    Agree loose parent (n :: ns) (n' :: ns) where
  content := by
    rw [convertContent, convertContent, show convert n = convert n' from congrArg Prod.fst same]
  operands := by
    rw [elements, elements, List.filter_cons_of_pos element, List.filter_cons_of_pos element', List.map_cons,
      List.map_cons, same]
  rows := rows
  cells := cells
  text := by
    rw [Node.textContentAll, Node.textContentAll, Text.visible_append, Text.visible_append,
      show visible n.textContent = visible n'.textContent from congrArg Prod.snd same]
  verbatim inToken := by
    rw [Node.textContentAll, Node.textContentAll, text inToken]

/-- Where white space does not count, a spacing node may stand before the others. -/
theorem space {n : Node} (spacing : isSpacing n = true) (ns : List Node) : Agree true parent ns (n :: ns) := by
  cases n with
  | element name attrs children => cases spacing
  | text t =>
    have blank : t.all isBlank = true := spacing
    refine ⟨?_, rfl, fun _ => ?_, fun _ => ?_, ?_, by simp⟩
    · rw [convertContent, convert, textRun, if_pos (Text.trim_of_isBlank blank), empty_append]
    · simp only [convertRows]
    · simp only [convertCells]
    · rw [Node.textContentAll, Node.textContent, Text.visible_append, Text.visible_of_isBlank blank,
        List.nil_append]
  | comment t =>
    refine ⟨?_, rfl, fun _ => ?_, fun _ => ?_, ?_, by simp⟩
    · rw [convertContent, convert, empty_append]
    · simp only [convertRows]
    · simp only [convertCells]
    · rw [Node.textContentAll, Node.textContent, List.nil_append]

theorem group (outside : parent ∉ tableParts) {wrapper : String} (grouping : plainName wrapper ∈ groupings)
    (attrs : List Markup.Attr) {n : Node} (element : n.isElement = true) (ns : List Node) :
    Agree loose parent (n :: ns) (.element wrapper attrs [n] :: ns) := by
  refine cons_element element rfl (outline_group grouping attrs n).symm (fun _ => ?_) ?_ ?_
  · rw [Node.textContent, Node.textContentAll, Node.textContentAll, List.append_nil]
  · rintro rfl
    exact absurd (by decide) outside
  · rintro (rfl | rfl) <;> exact absurd (by decide) outside

/-- A change inside an element is a change of the content the element stands in. -/
theorem inside {name : String} {attrs : List Markup.Attr} {children children' : List Node}
    (agree : Agree (loose && kindOf (plainName name) ≠ .token) (plainName name) children children')
    (ns : List Node) :
    Agree loose parent (.element name attrs children :: ns) (.element name attrs children' :: ns) := by
  refine cons_element rfl rfl ?_ (fun inToken => ?_) (fun _ => ?_) fun _ => ?_
  · rw [outline, outline, agree.convert_element attrs, Node.textContent, Node.textContent, agree.text]
  · rw [Node.textContent, Node.textContent, agree.verbatim (by simp [inToken])]
  · rw [convertRows, convertRows]
    split
    · next named => rw [agree.cells (.inl named)]
    · split
      · next named => rw [agree.cells (.inr named)]
      · rfl
  · rw [convertCells, convertCells, agree.content]

theorem later (n : Node) (agree : Agree loose parent ns ns') : Agree loose parent (n :: ns) (n :: ns') where
  content := by rw [convertContent, convertContent, agree.content]
  operands := by
    rw [elements, elements, List.filter_cons, List.filter_cons]
    split
    · exact congrArg (outline n :: ·) agree.operands
    · exact agree.operands
  rows table := by
    cases n <;> simp only [convertRows, agree.rows table]
  cells row := by
    cases n <;> simp only [convertCells, agree.cells row]
  text := by
    rw [Node.textContentAll, Node.textContentAll, Text.visible_append, Text.visible_append, agree.text]
  verbatim inToken := by
    rw [Node.textContentAll, Node.textContentAll, agree.verbatim inToken]

end Agree

/-- No element sees a change of layout in its content. -/
theorem Relaid.agree {loose : Bool} {parent : String} {ns ns' : List Node} (h : Relaid loose parent ns ns') :
    Agree loose parent ns ns' := by
  induction h with
  | group outside grouping attrs element ns => exact .group outside grouping attrs element ns
  | space spacing ns => exact .space spacing ns
  | inside _ ns ih => exact ih.inside ns
  | later n _ ih => exact ih.later n

/-! ## Formulas -/

section Compile

variable {name : String} (math : plainName name = "math") (attrs : List Markup.Attr)
include math

/-- A formula whose conversion comes to its end is pasted as its content is converted. -/
theorem compile_followed {host : Host} {ns : List Node}
    (followed : host.mathMLFailure? (.element name attrs ns) = none) (display : Option Bool) :
    compile host (.tree (.element name attrs ns)) display =
      ⟨Omml.wrap (Omml.formula (convertContent ns).nodes).render
          (display.getD (asksForDisplay (.element name attrs []))),
        (convertContent ns).unknown.map unknownElement⟩ := by
  rw [compile, compileTree, findMath?, if_pos math]
  simp only [followed]
  exact congrArg (Report.Reported.mk _) (List.append_nil _)

/-- Of a formula whose conversion breaks off the text is kept. -/
theorem compile_interrupted {host : Host} {ns : List Node} {interruption : Interruption}
    (interrupted : host.mathMLFailure? (.element name attrs ns) = some interruption) (display : Option Bool) :
    compile host (.tree (.element name attrs ns)) display =
      ⟨plainMarkup (trimmedText (.element name attrs ns)) (display.getD (asksForDisplay (.element name attrs []))),
        ((convertContent ns).unknown.take interruption.warnings).map unknownElement ++
          [Report.failure location interruption.cause []]⟩ := by
  rw [compile, compileTree, findMath?, if_pos math]
  simp only [interrupted]
  rfl

end Compile

/-- However a formula is laid out, the same is pasted for it, with the same warnings, unless the conversion of
one of the layouts breaks off. There the text is kept, which is the same up to blanks, and of the same warnings
the first have been given. -/
theorem compile_relaid (host : Host) {name : String} (math : plainName name = "math") (attrs : List Markup.Attr)
    {ns ns' : List Node} (relaid : Relation.EqvGen (Relaid true "math") ns ns') (display : Option Bool) :
    (host.mathMLFailure? (.element name attrs ns) = none → host.mathMLFailure? (.element name attrs ns') = none →
      compile host (.tree (.element name attrs ns)) display =
        compile host (.tree (.element name attrs ns')) display) ∧
    (∀ content ∈ [ns, ns'], ∀ interruption,
      host.mathMLFailure? (.element name attrs content) = some interruption →
      compile host (.tree (.element name attrs content)) display =
        ⟨plainMarkup (trimmedText (.element name attrs content))
            (display.getD (asksForDisplay (.element name attrs content))),
          ((convertMath (.element name attrs ns)).unknown.take interruption.warnings).map unknownElement ++
            [Report.failure location interruption.cause []]⟩) ∧
    visible (trimmedText (.element name attrs ns)) = visible (trimmedText (.element name attrs ns')) := by
  obtain ⟨content, text⟩ : convertContent ns' = convertContent ns ∧
      visible (Node.textContentAll ns) = visible (Node.textContentAll ns') := by
    induction relaid with
    | rel ns ns' step => exact ⟨step.agree.content.symm, step.agree.text⟩
    | refl ns => exact ⟨rfl, rfl⟩
    | symm ns ns' _ ih => exact ⟨ih.1.symm, ih.2.symm⟩
    | trans ns ns' ns'' _ _ ih ih' => exact ⟨ih'.1.trans ih.1, ih.2.trans ih'.2⟩
  refine ⟨fun followed followed' => ?_, ?_, ?_⟩
  · rw [compile_followed math attrs followed, compile_followed math attrs followed', content]
  · simp only [List.mem_cons, List.not_mem_nil, or_false]
    rintro _ (rfl | rfl) interruption interrupted
    · exact compile_interrupted math attrs interrupted display
    · rw [compile_interrupted math attrs interrupted display, content]
      rfl
  · rw [trimmedText, trimmedText, Text.visible_trim, Text.visible_trim, Node.textContent, Node.textContent]
    exact text

/-- A sum and a table, laid out in one line. -/
def sumAndTable : List Node :=
  [.element "munder" [] [.element "mo" [] [.text ['∑']], .element "mi" [] [.text ['i']]],
    .element "mtable" [] [.element "mtr" [] [.element "mtd" [] [.element "mblah" [] [.text ['x']]]]]]

/-- The same with a group, a comment and blanks. -/
def sumAndTableSpaced : List Node :=
  [.element "munder" [] [.element "mstyle" [] [.element "mo" [] [.text ['∑']]], .comment ['k'],
      .element "mi" [] [.text ['i']]], .text ['\n'],
    .element "mtable" [] [.text [' '],
      .element "mtr" [] [.element "mtd" [] [.element "mblah" [] [.text ['x']]]]]]

theorem relaid_sumAndTable : Relation.EqvGen (Relaid true "math") sumAndTable sumAndTableSpaced := by
  have style : plainName "mstyle" ∈ groupings := by decide
  have remark : isSpacing (.comment ['k']) = true := rfl
  have lineBreak : isSpacing (.text ['\n']) = true := by decide
  have blank : isSpacing (.text [' ']) = true := by decide
  exact .trans _ _ _ (.rel _ _ (.under (by decide) (.group (by decide) style [] rfl _) _))
    (.trans _ _ _ (.rel _ _ (.under (by decide) (.later _ (.space remark _)) _))
    (.trans _ _ _ (.rel _ _ (.later _ (.space lineBreak _)))
    (.rel _ _ (.later _ (.later _ (.under (by decide) (.space blank _) _))))))

theorem compile_relaid_sumAndTable :
    plainName "m:math" = "math" ∧ Relation.EqvGen (Relaid true "math") sumAndTable sumAndTableSpaced ∧
      compile .tireless (.tree (.element "m:math" [] sumAndTable)) none =
        compile .tireless (.tree (.element "m:math" [] sumAndTableSpaced)) none :=
  have math : plainName "m:math" = "math" := by decide
  ⟨math, relaid_sumAndTable, (compile_relaid .tireless math [] relaid_sumAndTable none).1 rfl rfl⟩

/-! ## Conversions that break off -/

/-- Superscripts on superscripts. -/
def tower : Nat → Node
  | 0 => .element "mi" [] [.text ['x']]
  | n + 1 => .element "msup" [] [tower n, .element "mi" [] []]

theorem textContent_tower (n : Nat) : (tower n).textContent = ['x'] := by
  induction n with
  | zero => rfl
  | succ n ih =>
    rw [tower, Node.textContent, Node.textContentAll, ih]
    rfl

/-- A blank is seen in the text that is kept of a formula whose conversion breaks off. -/
theorem compile_relaid_tower :
    let y : Node := .element "mi" [] [.text ['y']]
    let close : Node := .element "math" [] [tower 250, y]
    let spaced : Node := .element "math" [] [tower 250, .text [' '], y]
    Relaid true "math" [tower 250, y] [tower 250, .text [' '], y] ∧
      plainMarkup ['x', 'y'] false ≠ plainMarkup ['x', ' ', 'y'] false ∧
      ∀ host interruption interruption', host.mathMLFailure? close = some interruption →
        host.mathMLFailure? spaced = some interruption' →
        (compile host (.tree close) (some false)).value = plainMarkup ['x', 'y'] false ∧
          (compile host (.tree spaced) (some false)).value = plainMarkup ['x', ' ', 'y'] false := by
  intro y close spaced
  have math : plainName "math" = "math" := by decide
  have text (more : List Node) : trimmedText (.element "math" [] (tower 250 :: more)) =
      Text.trim ('x' :: Node.textContentAll more) := by
    rw [trimmedText, Node.textContent, Node.textContentAll, textContent_tower]
    rfl
  refine ⟨.later _ (.space (by decide) _), ?_, ?_⟩
  · rw [plainMarkup, plainMarkup, Omml.wrap_fallback, Omml.wrap_fallback]
    decide
  · intro host interruption interruption' interrupted interrupted'
    rw [compile_interrupted math [] interrupted, compile_interrupted math [] interrupted']
    exact ⟨congrArg (plainMarkup · false) ((text [y]).trans (by decide)),
      congrArg (plainMarkup · false) ((text [.text [' '], y]).trans (by decide))⟩

end OfficeFormula.MathML
