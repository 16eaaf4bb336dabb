import OfficeFormula.Markup.Html.Event
import OfficeFormula.Markup.Tree
import OfficeFormula.Markup.Xml.Character
import OfficeFormula.Text.Blank

/-!
# Elements in a fragment

Elements are found in document order: an element comes before what it contains. A class of an
element is one of the words of its `class` attribute.
-/

namespace OfficeFormula.Markup.Html

/-- An element with its parts. -/
structure Element where
  name : String
  attrs : List Attr
  children : List Node

namespace Element

/-- The element as a node. -/
def node (e : Element) : Node := .element e.name e.attrs e.children

/-- The value of an attribute; empty where it is left out. -/
def attr? (e : Element) (key : String) : Option Text := Markup.attr? e.attrs key

def textContent (e : Element) : Text := Node.textContentAll e.children

/-- One of the words of the `class` attribute is `word`. -/
def hasClass (e : Element) (word : String) : Bool :=
  (((e.attr? "class").getD []).wordsBy Xml.isSpace).contains word.toList

end Element

mutual

/-- The node, if it is an element, and all elements inside it. -/
def elementsIn : Node → List Element
  | .element name attrs children => ⟨name, attrs, children⟩ :: elementsInAll children
  | .text _ | .comment _ => []

def elementsInAll : List Node → List Element
  | [] => []
  | n :: ns => elementsIn n ++ elementsInAll ns

end

mutual

/-- The node without the elements with some names. -/
def dropElements (names : List String) : Node → List Node
  | .element name attrs children =>
    if names.contains name then [] else [.element name attrs (dropElementsAll names children)]
  | .text t => [.text t]
  | .comment t => [.comment t]

def dropElementsAll (names : List String) : List Node → List Node
  | [] => []
  | n :: ns => dropElements names n ++ dropElementsAll names ns

end

end OfficeFormula.Markup.Html
