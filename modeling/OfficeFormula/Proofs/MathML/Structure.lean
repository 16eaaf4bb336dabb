import OfficeFormula.MathML.Markup

/-!
# The structures of MathML

What each kind of element is converted to, from its operands. `Converts n ns` says this of an element in
which nothing is unknown.
-/

namespace OfficeFormula.MathML

open Markup (Node Attr)

-- The equations of the recursion, made here once for all lemmas below.
attribute [local simp] convert convertElements

/-- The element is converted to the nodes, and nothing in it is unknown. -/
structure Converts (n : Node) (ns : List Omml.Node) : Prop where
  element : n.isElement = true
  nodes : convert n = ⟨ns, []⟩

/-- The same of the elements that are the content of an element. -/
inductive ConvertsAll : List Node → List Omml.Node → Prop where
  | nil : ConvertsAll [] []
  | cons {n : Node} {more : List Node} {ns ns' : List Omml.Node} (first : Converts n ns)
      (later : ConvertsAll more ns') : ConvertsAll (n :: more) (ns ++ ns')

/-! ## Operands -/

theorem convertElements_cons {n : Node} (element : n.isElement = true) (more : List Node) :
    convertElements (n :: more) = convert n :: convertElements more := by
  cases n with
  | element name attrs children => rw [convertElements]
  | text t => simp [Node.isElement] at element
  | comment t => simp [Node.isElement] at element

/-- Content is converted as its elements are, one after the other. -/
theorem ConvertsAll.nodes {children : List Node} {ns : List Omml.Node} (all : ConvertsAll children ns) :
    convertContent children = ⟨ns, []⟩ := by
  induction all with
  | nil => rfl
  | cons first _ ih =>
    rw [convertContent, first.nodes, ih]
    rfl

section Operands

variable {a b c : Node} {as bs cs : List Omml.Node}

theorem Converts.singleton (ha : Converts a as) : ConvertsAll [a] as := by
  have all := ConvertsAll.cons ha .nil
  rwa [List.append_nil] at all

theorem convertElements_two (ha : Converts a as) (hb : Converts b bs) :
    convertElements [a, b] = [⟨as, []⟩, ⟨bs, []⟩] := by
  rw [convertElements_cons ha.element, convertElements_cons hb.element, ha.nodes, hb.nodes]
  rfl

theorem convertElements_three (ha : Converts a as) (hb : Converts b bs) (hc : Converts c cs) :
    convertElements [a, b, c] = [⟨as, []⟩, ⟨bs, []⟩, ⟨cs, []⟩] := by
  rw [convertElements_cons ha.element, convertElements_two hb hc, ha.nodes]

end Operands

/-! ## Elements -/

/-- The node of an element with two operands that are not limits. -/
def pairNode : Kind → Option (List Omml.Node → List Omml.Node → Omml.Node)
  | .fraction => some Omml.fraction
  | .root => some fun base degree => Omml.radical base degree false
  | .subscript => some fun base sub => Omml.scripts base (some sub) none
  | .superscript => some fun base sup => Omml.scripts base none (some sup)
  | _ => none

namespace Converts

variable {name : String} {attrs : List Attr}

/-- A token is converted to one run of its text. -/
theorem token (kind : kindOf (plainName name) = .token) {t : Text} (trimmed : t.trim = t) :
    Converts (.element name attrs [.text t]) [Omml.run t false] := by
  refine ⟨rfl, ?_⟩
  rw [convert]
  simp [kind, Node.textContentAll, Node.textContent, trimmed]

section Content

variable {children : List Node} {ns : List Omml.Node}

/-- A row is converted to its content in its place. -/
theorem row (kind : kindOf (plainName name) = .row) (content : ConvertsAll children ns) :
    Converts (.element name attrs children) ns := by
  refine ⟨rfl, ?_⟩
  rw [convert]
  simp only [kind, content.nodes]

theorem squareRoot (kind : kindOf (plainName name) = .squareRoot) (content : ConvertsAll children ns) :
    Converts (.element name attrs children) [Omml.radical ns [] true] := by
  refine ⟨rfl, ?_⟩
  rw [convert]
  simp only [kind, content.nodes]
  rfl

end Content

section Operands

variable {a b c : Node} {as bs cs : List Omml.Node}

/-- An element with two operands is converted to the node of its kind. -/
theorem pair {kind : Kind} (named : kindOf (plainName name) = kind)
    {f : List Omml.Node → List Omml.Node → Omml.Node} (known : pairNode kind = some f)
    (ha : Converts a as) (hb : Converts b bs) : Converts (.element name attrs [a, b]) [f as bs] := by
  have converted := convertElements_two ha hb
  refine ⟨rfl, ?_⟩
  rw [convert]
  cases kind with
  | fraction | root | subscript | superscript =>
    obtain rfl := Option.some.inj known
    simp only [named, converted]
    rfl
  | _ => exact absurd known (by simp [pairNode])

theorem subSuperscript (kind : kindOf (plainName name) = .subSuperscript) (ha : Converts a as)
    (hb : Converts b bs) (hc : Converts c cs) :
    Converts (.element name attrs [a, b, c]) [Omml.scripts as (some bs) (some cs)] := by
  refine ⟨rfl, ?_⟩
  rw [convert]
  simp only [kind, convertElements_three ha hb hc]
  rfl

end Operands

/-! ## Big operators -/

section BigOperators

variable {a b c : Node} {as bs cs : List Omml.Node} {glyph : Char}

theorem baseOperator?_cons (element : a.isElement = true) (more : List Node) :
    baseOperator? (a :: more) = bigOperator? a := by
  have first : (elements (a :: more)).head? = some a := by rw [elements, List.filter_cons_of_pos element]; rfl
  rw [baseOperator?, first, Option.bind_some]

/-- What stands below a big operator is its lower limit. -/
theorem lower (kind : kindOf (plainName name) = .lower) (operator : bigOperator? a = some glyph)
    (ha : Converts a as) (hb : Converts b bs) :
    Converts (.element name attrs [a, b]) [Omml.nary [glyph] (some bs) none [] limitPlace] := by
  refine ⟨rfl, ?_⟩
  rw [convert]
  simp only [kind, convertElements_two ha hb, baseOperator?_cons ha.element, operator]
  rfl

/-- What stands above a big operator is its upper limit. -/
theorem upper (kind : kindOf (plainName name) = .upper) (operator : bigOperator? a = some glyph)
    (ha : Converts a as) (hb : Converts b bs) :
    Converts (.element name attrs [a, b]) [Omml.nary [glyph] none (some bs) [] limitPlace] := by
  refine ⟨rfl, ?_⟩
  rw [convert]
  simp only [kind, convertElements_two ha hb, baseOperator?_cons ha.element, operator]
  rfl

theorem lowerUpper (kind : kindOf (plainName name) = .lowerUpper) (operator : bigOperator? a = some glyph)
    (ha : Converts a as) (hb : Converts b bs) (hc : Converts c cs) :
    Converts (.element name attrs [a, b, c]) [Omml.nary [glyph] (some bs) (some cs) [] limitPlace] := by
  refine ⟨rfl, ?_⟩
  rw [convert]
  simp only [kind, convertElements_three ha hb hc, baseOperator?_cons ha.element, operator]
  rfl

end BigOperators

end Converts

end OfficeFormula.MathML
