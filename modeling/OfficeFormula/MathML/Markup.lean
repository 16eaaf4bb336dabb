import OfficeFormula.MathML.Element
import OfficeFormula.Omml.Node

/-!
# Presentation MathML as Office Math Markup

`convert` gives the nodes that print a piece of MathML, and the names of the elements it does not
know, in the order in which they are met. The content of an unknown element stands in its place. An
element with too few operands prints as an empty run.
-/

namespace OfficeFormula.MathML

open Markup (Node)

/-- The nodes that print a piece of MathML, and the names of the unknown elements in it. -/
structure Converted where
  nodes : List Omml.Node
  unknown : List Text

namespace Converted

def empty : Converted := ⟨[], []⟩

def append (a b : Converted) : Converted := ⟨a.nodes ++ b.nodes, a.unknown ++ b.unknown⟩

instance : Append Converted := ⟨append⟩

/-- One node made from the nodes of several parts. -/
def node (parts : List Converted) (n : Omml.Node) : Converted := ⟨[n], parts.flatMap unknown⟩

end Converted

/-- A run of trimmed text, unless it is empty. -/
def textRun (t : Text) : Converted :=
  if t.trim = [] then .empty else ⟨[Omml.run t.trim false], []⟩

/-- What stands for an element with too few operands. -/
def missingOperand : Converted := ⟨[Omml.run [] false], []⟩

/-- Limits of a big operator stand below and above it. -/
def limitPlace : Option Text := some "undOver".toList

/-- A big operator with the limits that are given. -/
def bigOperator (glyph : Char) (base : Converted) (sub sup : Option Converted) : Converted :=
  .node (base :: sub.toList ++ sup.toList)
    (Omml.nary [glyph] (sub.map (·.nodes)) (sup.map (·.nodes)) [] limitPlace)

/-- Something below a base. -/
def lowerMarkup (operator : Option Char) (base lower : Converted) : Converted :=
  match operator with
  | some glyph => bigOperator glyph base (some lower) none
  | none => .node [base, lower] (Omml.lowerLimit base.nodes lower.nodes)

/-- Something above a base: an accent if it is a single character. -/
def upperMarkup (operator accent : Option Char) (base upper : Converted) : Converted :=
  match operator, accent with
  | some glyph, _ => bigOperator glyph base none (some upper)
  | none, some glyph => .node [base, upper] (Omml.accent base.nodes [glyph])
  | none, none => .node [base, upper] (Omml.upperLimit base.nodes upper.nodes)

/-- Something below and something above a base. -/
def lowerUpperMarkup (operator : Option Char) (base lower upper : Converted) : Converted :=
  match operator with
  | some glyph => bigOperator glyph base (some lower) (some upper)
  | none => .node [base, lower, upper]
      (Omml.lowerLimit [Omml.upperLimit base.nodes upper.nodes] lower.nodes)

/-- The delimiters of a fenced expression, where it does not name others. -/
def fences (attrs : List Markup.Attr) : Text × Text :=
  ((Markup.attr? attrs "open").getD ['('], (Markup.attr? attrs "close").getD [')'])

/-- A table from its converted cells. -/
def tableMarkup (rows : List (List Converted)) : Converted :=
  .node rows.flatten (Omml.matrix (rows.map (·.map (·.nodes))))

mutual

/-- The markup of a node. -/
def convert : Node → Converted
  | .text t => textRun t
  | .comment _ => .empty
  | .element name attrs children =>
    match kindOf (plainName name) with
    | .ignored => .empty
    | .row => convertContent children
    | .token => ⟨[Omml.run (Markup.Node.textContentAll children).trim false], []⟩
    | .superscript =>
      match convertElements children with
      | base :: sup :: _ => .node [base, sup] (Omml.scripts base.nodes none (some sup.nodes))
      | _ => missingOperand
    | .subscript =>
      match convertElements children with
      | base :: sub :: _ => .node [base, sub] (Omml.scripts base.nodes (some sub.nodes) none)
      | _ => missingOperand
    | .subSuperscript =>
      match convertElements children with
      | base :: sub :: sup :: _ =>
        .node [base, sub, sup] (Omml.scripts base.nodes (some sub.nodes) (some sup.nodes))
      | _ => missingOperand
    | .fraction =>
      match convertElements children with
      | num :: den :: _ => .node [num, den] (Omml.fraction num.nodes den.nodes)
      | _ => missingOperand
    | .squareRoot =>
      let base := convertContent children
      .node [base] (Omml.radical base.nodes [] true)
    | .root =>
      match convertElements children with
      | base :: degree :: _ => .node [base, degree] (Omml.radical base.nodes degree.nodes false)
      | _ => missingOperand
    | .lower =>
      match convertElements children with
      | base :: lower :: _ => lowerMarkup (baseOperator? children) base lower
      | _ => missingOperand
    | .upper =>
      match convertElements children with
      | base :: upper :: _ =>
        upperMarkup (baseOperator? children) (accentGlyph? children) base upper
      | _ => missingOperand
    | .lowerUpper =>
      match convertElements children with
      | base :: lower :: upper :: _ => lowerUpperMarkup (baseOperator? children) base lower upper
      | _ => missingOperand
    | .fenced =>
      let inner := convertContent children
      ⟨Omml.run (fences attrs).1 false :: inner.nodes ++ [Omml.run (fences attrs).2 false],
        inner.unknown⟩
    | .table => tableMarkup (convertRows children)
    | .space => ⟨[Omml.run [' '] false], []⟩
    | .semantics => convertFirst children
    | .unknown => ⟨[], [(plainName name).toList]⟩ ++ convertContent children

/-- The content of an element in its place. -/
def convertContent : List Node → Converted
  | [] => .empty
  | n :: ns => convert n ++ convertContent ns

/-- The markup of each element among nodes. -/
def convertElements : List Node → List Converted
  | [] => []
  | .element name attrs children :: ns =>
    convert (.element name attrs children) :: convertElements ns
  | _ :: ns => convertElements ns

/-- The markup of the first element among nodes. -/
def convertFirst : List Node → Converted
  | [] => .empty
  | .element name attrs children :: _ => convert (.element name attrs children)
  | _ :: ns => convertFirst ns

/-- The cells of each row among nodes. The first cell of a labelled row is its label. -/
def convertRows : List Node → List (List Converted)
  | [] => []
  | .element name _ children :: ns =>
    if plainName name = "mtr" then convertCells children :: convertRows ns
    else if plainName name = "mlabeledtr" then (convertCells children).drop 1 :: convertRows ns
    else convertRows ns
  | _ :: ns => convertRows ns

/-- The content of each cell among nodes. -/
def convertCells : List Node → List Converted
  | [] => []
  | .element name _ children :: ns =>
    if plainName name = "mtd" then convertContent children :: convertCells ns else convertCells ns
  | _ :: ns => convertCells ns

end

/-- The markup of a whole `math` element. -/
def convertMath : Node → Converted
  | .element _ _ children => convertContent children
  | n => convert n

end OfficeFormula.MathML
