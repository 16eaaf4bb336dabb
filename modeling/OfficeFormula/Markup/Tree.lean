import OfficeFormula.Text.Basic

/-!
# Markup trees

Elements with attributes and content, the text between them, and comments. Names are as they were
written, with their prefix.
-/

namespace OfficeFormula.Markup

/-- The name of an attribute and its value, which may be left out. -/
abbrev Attr := String × Option Text

inductive Node where
  | element (name : String) (attrs : List Attr) (children : List Node)
  | text (t : Text)
  | comment (t : Text)

namespace Node

mutual

/-- All the text of a node in order, that of comments apart. -/
def textContent : Node → Text
  | element _ _ children => textContentAll children
  | text t => t
  | comment _ => []

def textContentAll : List Node → Text
  | [] => []
  | n :: ns => n.textContent ++ textContentAll ns

end

/-- Elements, as opposed to text and comments. -/
def isElement : Node → Bool
  | element _ _ _ => true
  | text _ | comment _ => false

end Node

/-- The content so far, the last node first, and one more node. Text joins text. -/
def addNode (n : Node) (content : List Node) : List Node :=
  match n, content with
  | .text t, .text t' :: ns => .text (t' ++ t) :: ns
  | n, ns => n :: ns

/-- The value of the attribute `name`; empty where it is left out. -/
def attr? (attrs : List Attr) (name : String) : Option Text :=
  (attrs.lookup name).map (·.getD [])

/-- The part of a name after its prefix. -/
def localName (name : String) : Text :=
  match (name.toList.dropWhile (· ≠ ':')) with
  | [] => name.toList
  | _ :: rest => rest

/-- The prefix of a name that has one. -/
def prefixOf? (name : String) : Option Text :=
  if name.toList.contains ':' then some (name.toList.takeWhile (· ≠ ':')) else none

end OfficeFormula.Markup
