import OfficeFormula.MathML.Markup
import OfficeFormula.Proofs.Omml.Quiet

/-!
# The markup of MathML

Whatever tree is converted, its markup keeps to the content model (`MarkupRule`): an element with too few
operands becomes a run, and what is not understood gives its place to its content. A glyph in an attribute
is a big operator that is known as one, or the single character of an accent.
-/

namespace OfficeFormula.MathML

open Markup (Node)

/-- The structures of the markup of MathML. -/
inductive MarkupRule : Omml.Rule where
  | common {n : Omml.Node} {slots : List (List Omml.Node)} (h : Omml.CommonRule bigOperators n slots) :
      MarkupRule n slots
  | lowerLimit (base limit : List Omml.Node) :
      MarkupRule (Omml.element "limLow" [Omml.element "e" base, Omml.element "lim" limit]) [base, limit]
  | upperLimit (base limit : List Omml.Node) :
      MarkupRule (Omml.element "limUpp" [Omml.element "e" base, Omml.element "lim" limit]) [base, limit]
  | accent (glyph : Char) (base : List Omml.Node) :
      MarkupRule
        (Omml.element "acc" [Omml.element "accPr" [Omml.property "chr" [glyph]], Omml.element "e" base])
        [base]
  | matrix (rows : List (List (List Omml.Node))) :
      MarkupRule (Omml.element "m" (rows.map fun row => Omml.element "mr" (row.map (Omml.element "e"))))
        rows.flatten

/-- The nodes of a conversion keep to the content model. -/
def Converted.Conforming (c : Converted) : Prop := ∀ n ∈ c.nodes, Omml.Conforms MarkupRule n

namespace Converted

/-- A structure whose node follows the rules conforms, whatever its parts warn of. -/
theorem conforming_node {parts : List Converted} {n : Omml.Node} (h : Omml.Conforms MarkupRule n) :
    (node parts n).Conforming := by
  simpa [Conforming, node] using h

theorem Conforming.some {c : Converted} (h : c.Conforming) :
    ∀ ns ∈ some c.nodes, ∀ n ∈ ns, Omml.Conforms MarkupRule n := by
  rintro _ ⟨⟩
  exact h

theorem Conforming.append {a b : Converted} (ha : a.Conforming) (hb : b.Conforming) :
    (a ++ b).Conforming := by
  intro n hn
  rcases List.mem_append.1 (show n ∈ a.nodes ++ b.nodes from hn) with hn | hn
  · exact ha n hn
  · exact hb n hn

end Converted

theorem conforming_empty : Converted.empty.Conforming := by simp [Converted.Conforming, Converted.empty]

theorem conforming_ofRun (t : Text) : Converted.Conforming ⟨[Omml.run t false], []⟩ := by
  simpa [Converted.Conforming] using Omml.conforms_run .common t

theorem conforming_textRun (t : Text) : (textRun t).Conforming := by
  unfold textRun
  split
  · exact conforming_empty
  · exact conforming_ofRun t.trim

/-- A base is taken for an operator only if the table has it. -/
theorem mem_bigOperators_of_baseOperator? {ns : List Node} {glyph : Char}
    (h : baseOperator? ns = some glyph) : glyph ∈ bigOperators := by
  obtain ⟨base, _, found⟩ := Option.bind_eq_some_iff.1 h
  unfold bigOperator? at found
  split at found
  · next c _ =>
    split at found
    · next known =>
      obtain rfl := Option.some.inj found
      exact List.contains_iff_mem.1 known
    · cases found
  · cases found

section Structures

variable {base lower upper : Converted}

/-- An operator from the table takes its scripts as limits. -/
theorem conforming_bigOperator {glyph : Char} (known : glyph ∈ bigOperators) {sub sup : Option Converted}
    (hsub : ∀ c ∈ sub, c.Conforming) (hsup : ∀ c ∈ sup, c.Conforming) :
    (bigOperator glyph base sub sup).Conforming := by
  have nodes {script : Option Converted} (h : ∀ c ∈ script, c.Conforming) :
      ∀ ns ∈ script.map (·.nodes), ∀ n ∈ ns, Omml.Conforms MarkupRule n := by
    cases script with
    | none => simp
    | some c => exact (h c rfl).some
  exact Converted.conforming_node (Omml.conforms_nary .common known (by simp [Omml.operatorMarks])
    (by simp) (nodes hsub) (nodes hsup))

theorem conforms_lowerLimit {ns ms : List Omml.Node} (hns : ∀ n ∈ ns, Omml.Conforms MarkupRule n)
    (hms : ∀ n ∈ ms, Omml.Conforms MarkupRule n) : Omml.Conforms MarkupRule (Omml.lowerLimit ns ms) :=
  .of_rule (.lowerLimit ns ms) (by simpa using ⟨hns, hms⟩)

theorem conforms_upperLimit {ns ms : List Omml.Node} (hns : ∀ n ∈ ns, Omml.Conforms MarkupRule n)
    (hms : ∀ n ∈ ms, Omml.Conforms MarkupRule n) : Omml.Conforms MarkupRule (Omml.upperLimit ns ms) :=
  .of_rule (.upperLimit ns ms) (by simpa using ⟨hns, hms⟩)

theorem conforms_accent (glyph : Char) {ns : List Omml.Node} (hns : ∀ n ∈ ns, Omml.Conforms MarkupRule n) :
    Omml.Conforms MarkupRule (Omml.accent ns [glyph]) :=
  .of_rule (.accent glyph ns) (by simpa using hns)

theorem conforming_lowerMarkup {operator : Option Char} (known : ∀ glyph ∈ operator, glyph ∈ bigOperators)
    (hbase : base.Conforming) (hlower : lower.Conforming) : (lowerMarkup operator base lower).Conforming := by
  cases operator with
  | some glyph => exact conforming_bigOperator (known glyph rfl) (by simpa using hlower) (by simp)
  | none => exact Converted.conforming_node (conforms_lowerLimit hbase hlower)

/-- Over a base stands a limit of an operator, an accent or an upper limit. -/
theorem conforming_upperMarkup {operator : Option Char} (known : ∀ glyph ∈ operator, glyph ∈ bigOperators)
    (accent : Option Char) (hbase : base.Conforming) (hupper : upper.Conforming) :
    (upperMarkup operator accent base upper).Conforming := by
  cases operator with
  | some glyph => exact conforming_bigOperator (known glyph rfl) (by simp) (by simpa using hupper)
  | none =>
    cases accent with
    | some glyph => exact Converted.conforming_node (conforms_accent glyph hbase)
    | none => exact Converted.conforming_node (conforms_upperLimit hbase hupper)

theorem conforming_lowerUpperMarkup {operator : Option Char}
    (known : ∀ glyph ∈ operator, glyph ∈ bigOperators) (hbase : base.Conforming)
    (hlower : lower.Conforming) (hupper : upper.Conforming) :
    (lowerUpperMarkup operator base lower upper).Conforming := by
  cases operator with
  | some glyph =>
    exact conforming_bigOperator (known glyph rfl) (by simpa using hlower) (by simpa using hupper)
  | none =>
    have inside : ∀ n ∈ [Omml.upperLimit base.nodes upper.nodes], Omml.Conforms MarkupRule n := by
      simpa using conforms_upperLimit hbase hupper
    exact Converted.conforming_node (conforms_lowerLimit inside hlower)

/-- A table conforms if its cells do, ragged or not. -/
theorem conforming_tableMarkup {rows : List (List Converted)}
    (h : ∀ row ∈ rows, ∀ c ∈ row, c.Conforming) : (tableMarkup rows).Conforming := by
  apply Converted.conforming_node
  refine .of_rule (.matrix _) ?_
  intro cell hcell
  obtain ⟨row, hrow, hcell⟩ := List.mem_flatten.1 hcell
  obtain ⟨cells, hcells, rfl⟩ := List.mem_map.1 hrow
  obtain ⟨c, hc, rfl⟩ := List.mem_map.1 hcell
  exact h cells hcells c hc

/-- An element with two operands, or with too few. -/
theorem conforming_twoOperands {operands : List Converted} (h : ∀ c ∈ operands, c.Conforming)
    {f : Converted → Converted → Converted}
    (hf : ∀ a b, a.Conforming → b.Conforming → (f a b).Conforming) :
    Converted.Conforming (match operands with
      | a :: b :: _ => f a b
      | _ => missingOperand) := by
  split
  · simp only [List.forall_mem_cons] at h
    exact hf _ _ h.1 h.2.1
  · exact conforming_ofRun []

/-- An element with three operands, or with too few. -/
theorem conforming_threeOperands {operands : List Converted} (h : ∀ c ∈ operands, c.Conforming)
    {f : Converted → Converted → Converted → Converted}
    (hf : ∀ a b c, a.Conforming → b.Conforming → c.Conforming → (f a b c).Conforming) :
    Converted.Conforming (match operands with
      | a :: b :: c :: _ => f a b c
      | _ => missingOperand) := by
  split
  · simp only [List.forall_mem_cons] at h
    exact hf _ _ _ h.1 h.2.1 h.2.2.1
  · exact conforming_ofRun []

end Structures

mutual

/-- Every node is converted to nodes that follow the rules, by induction over the tree. -/
theorem conforming_convert : (n : Node) → (convert n).Conforming
  | .text t => by rw [convert]; exact conforming_textRun t
  | .comment t => by rw [convert]; exact conforming_empty
  | .element name attrs children => by
    have content := conforming_convertContent children
    have operands := conforming_convertElements children
    have known : ∀ glyph ∈ baseOperator? children, glyph ∈ bigOperators :=
      fun glyph h => mem_bigOperators_of_baseOperator? h
    cases kind : kindOf (plainName name) with
    | ignored => simp only [convert, kind]; exact conforming_empty
    | row => simp only [convert, kind]; exact content
    | token => simp only [convert, kind]; exact conforming_ofRun _
    | superscript =>
      simp only [convert, kind]
      exact conforming_twoOperands operands fun base sup hbase hsup =>
        Converted.conforming_node (Omml.conforms_scripts .common (by simp) hbase (by simp) hsup.some)
    | subscript =>
      simp only [convert, kind]
      exact conforming_twoOperands operands fun base sub hbase hsub =>
        Converted.conforming_node (Omml.conforms_scripts .common (by simp) hbase hsub.some (by simp))
    | subSuperscript =>
      simp only [convert, kind]
      exact conforming_threeOperands operands fun base sub sup hbase hsub hsup =>
        Converted.conforming_node (Omml.conforms_scripts .common (by simp) hbase hsub.some hsup.some)
    | fraction =>
      simp only [convert, kind]
      exact conforming_twoOperands operands fun num den hnum hden =>
        Converted.conforming_node (Omml.conforms_fraction .common hnum hden)
    | squareRoot =>
      simp only [convert, kind]
      exact Converted.conforming_node (Omml.conforms_squareRoot .common content)
    | root =>
      simp only [convert, kind]
      exact conforming_twoOperands operands fun base degree hbase hdegree =>
        Converted.conforming_node (Omml.conforms_root .common hbase hdegree)
    | lower =>
      simp only [convert, kind]
      exact conforming_twoOperands operands fun base lower hbase hlower =>
        conforming_lowerMarkup known hbase hlower
    | upper =>
      simp only [convert, kind]
      exact conforming_twoOperands operands fun base upper hbase hupper =>
        conforming_upperMarkup known _ hbase hupper
    | lowerUpper =>
      simp only [convert, kind]
      exact conforming_threeOperands operands fun base lower upper hbase hlower hupper =>
        conforming_lowerUpperMarkup known hbase hlower hupper
    | fenced =>
      simp only [convert, kind]
      have opening := conforming_ofRun (fences attrs).1
      have closing := conforming_ofRun (fences attrs).2
      exact (opening.append content).append closing
    | table => simp only [convert, kind]; exact conforming_tableMarkup (conforming_convertRows children)
    | space => simp only [convert, kind]; exact conforming_ofRun [' ']
    | semantics => simp only [convert, kind]; exact conforming_convertFirst children
    | unknown =>
      simp only [convert, kind]
      exact Converted.Conforming.append (by simp [Converted.Conforming]) content

theorem conforming_convertContent : (ns : List Node) → (convertContent ns).Conforming
  | [] => by rw [convertContent]; exact conforming_empty
  | n :: ns => by
    rw [convertContent]
    exact (conforming_convert n).append (conforming_convertContent ns)

theorem conforming_convertElements : (ns : List Node) → ∀ c ∈ convertElements ns, c.Conforming
  | [] => by simp [convertElements]
  | .element name attrs children :: ns => by
    rw [convertElements, List.forall_mem_cons]
    exact ⟨conforming_convert (.element name attrs children), conforming_convertElements ns⟩
  | .text _ :: ns => by
    simp only [convertElements]
    exact conforming_convertElements ns
  | .comment _ :: ns => by
    simp only [convertElements]
    exact conforming_convertElements ns

theorem conforming_convertFirst : (ns : List Node) → (convertFirst ns).Conforming
  | [] => by rw [convertFirst]; exact conforming_empty
  | .element name attrs children :: ns => by
    rw [convertFirst]
    exact conforming_convert (.element name attrs children)
  | .text _ :: ns => by
    simp only [convertFirst]
    exact conforming_convertFirst ns
  | .comment _ :: ns => by
    simp only [convertFirst]
    exact conforming_convertFirst ns

theorem conforming_convertRows : (ns : List Node) → ∀ row ∈ convertRows ns, ∀ c ∈ row, c.Conforming
  | [] => by simp [convertRows]
  | .element name attrs children :: ns => by
    have cells := conforming_convertCells children
    have rows := conforming_convertRows ns
    rw [convertRows]
    split
    · exact List.forall_mem_cons.2 ⟨cells, rows⟩
    · split
      · exact List.forall_mem_cons.2 ⟨fun c hc => cells c (List.mem_of_mem_drop hc), rows⟩
      · exact rows
  | .text _ :: ns => by
    simp only [convertRows]
    exact conforming_convertRows ns
  | .comment _ :: ns => by
    simp only [convertRows]
    exact conforming_convertRows ns

theorem conforming_convertCells : (ns : List Node) → ∀ c ∈ convertCells ns, c.Conforming
  | [] => by simp [convertCells]
  | .element name attrs children :: ns => by
    have cells := conforming_convertCells ns
    rw [convertCells]
    split
    · exact List.forall_mem_cons.2 ⟨conforming_convertContent children, cells⟩
    · exact cells
  | .text _ :: ns => by
    simp only [convertCells]
    exact conforming_convertCells ns
  | .comment _ :: ns => by
    simp only [convertCells]
    exact conforming_convertCells ns

end

theorem conforming_convertMath (math : Node) : (convertMath math).Conforming := by
  cases math with
  | element name attrs children => exact conforming_convertContent children
  | text t => exact conforming_convert (.text t)
  | comment t => exact conforming_convert (.comment t)

/-- The markup of MathML keeps to the content model, whatever tree it is made from. -/
theorem convertMath_conforms (math : Node) :
    ∃ content, Omml.formula (convertMath math).nodes = .element "m:oMath" [] content ∧
      ∀ n ∈ content, Omml.Conforms MarkupRule n :=
  ⟨(convertMath math).nodes, rfl, conforming_convertMath math⟩

/-! ## Quiet markup -/

theorem quiet_markupRule {n : Omml.Node} {slots : List (List Omml.Node)} (shape : MarkupRule n slots)
    (inside : ∀ slot ∈ slots, ∀ m ∈ slot, m.Quiet) : n.Quiet := by
  cases shape with
  | common h => exact Omml.quiet_commonRule h inside
  | lowerLimit base limit => exact Omml.quiet_pair (by decide) (by decide) (by decide) inside
  | upperLimit base limit => exact Omml.quiet_pair (by decide) (by decide) (by decide) inside
  | accent glyph base =>
    have mark : (Omml.element "accPr" [Omml.property "chr" [glyph]]).Quiet :=
      Omml.quiet_element (by decide)
        (by simpa using Omml.quiet_property (by decide) (Omml.isQuietAttr_glyph glyph))
    simp only [List.forall_mem_cons] at inside
    apply Omml.quiet_element (by decide)
    simpa using ⟨mark, Omml.quiet_element (by decide) inside.1⟩
  | matrix rows => exact Omml.quiet_matrix inside

/-- The markup of a formula is quiet. -/
theorem quiet_convertMath (math : Node) : ∀ n ∈ (convertMath math).nodes, n.Quiet :=
  fun n hn => (conforming_convertMath math n hn).quiet quiet_markupRule

end OfficeFormula.MathML
