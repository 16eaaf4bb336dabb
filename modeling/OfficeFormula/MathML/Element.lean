import OfficeFormula.Markup.Tree
import OfficeFormula.Text.Blank
import OfficeFormula.Text.Lowercase

/-!
# Elements of presentation MathML

What each element means to the conversion, by its name without prefix and in lower case.
-/

namespace OfficeFormula.MathML

open Markup (Node)

/-- How an element is converted. -/
inductive Kind where
  /-- Not part of the printed formula. -/
  | ignored
  /-- Its content in its place. -/
  | row
  /-- A run of its text. -/
  | token
  | superscript
  | subscript
  | subSuperscript
  | fraction
  | squareRoot
  | root
  | lower
  | upper
  | lowerUpper
  | fenced
  | table
  | space
  /-- The printed form, followed by annotations. -/
  | semantics
  | unknown
deriving DecidableEq, Repr

/-- The kinds of the elements that have one. -/
def kinds : List (String × Kind) := [
  ("annotation", .ignored), ("annotation-xml", .ignored), ("none", .ignored),
  ("mprescripts", .ignored),
  ("mrow", .row), ("mstyle", .row), ("mpadded", .row), ("mphantom", .row), ("merror", .row),
  ("mi", .token), ("mn", .token), ("mo", .token), ("mtext", .token), ("ms", .token),
  ("msup", .superscript), ("msub", .subscript), ("msubsup", .subSuperscript),
  ("mfrac", .fraction), ("msqrt", .squareRoot), ("mroot", .root),
  ("munder", .lower), ("mover", .upper), ("munderover", .lowerUpper),
  ("mfenced", .fenced), ("mtable", .table), ("mspace", .space), ("semantics", .semantics)]

/-- The name by which an element is known: without prefix, in lower case. -/
def plainName (name : String) : String := String.ofList (Text.lower (Markup.localName name))

/-- The kind of an element, by its plain name. -/
def kindOf (name : String) : Kind := (kinds.lookup name).getD .unknown

/-- The big operators, whose scripts below and above are limits. -/
def bigOperators : List Char := ['∑', '∏', '∫', '∮', '∯', '∰', '∱', '∲', '∳']

/-- The text of a node without the blanks around it. -/
def trimmedText (n : Node) : Text := n.textContent.trim

/-- The big operator that a node consists of. -/
def bigOperator? (n : Node) : Option Char :=
  match trimmedText n with
  | [c] => if bigOperators.contains c then some c else none
  | _ => none

/-- The elements among nodes. -/
def elements (ns : List Node) : List Node := ns.filter Node.isElement

/-- The big operator that the first element among nodes consists of. -/
def baseOperator? (ns : List Node) : Option Char := (elements ns).head?.bind bigOperator?

/-- The single character that the second element among nodes consists of. -/
def accentGlyph? (ns : List Node) : Option Char :=
  match elements ns with
  | _ :: upper :: _ =>
    match trimmedText upper with
    | [c] => some c
    | _ => none
  | _ => none

mutual

/-- The first `math` element of a tree in document order, the tree itself included. -/
def findMath? : Node → Option Node
  | .element name attrs children =>
    if plainName name = "math" then some (.element name attrs children) else findMathIn? children
  | .text _ | .comment _ => none

def findMathIn? : List Node → Option Node
  | [] => none
  | n :: ns =>
    match findMath? n with
    | some m => some m
    | none => findMathIn? ns

end

end OfficeFormula.MathML
