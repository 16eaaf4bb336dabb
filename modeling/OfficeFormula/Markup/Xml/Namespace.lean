import OfficeFormula.Markup.Tree
import OfficeFormula.Markup.Xml.Address
import OfficeFormula.Markup.Xml.Event

/-!
# Namespaces of XML

A name may begin with a label and a colon. The label stands for a namespace, which an attribute of
the element or of an element around it declares. Two attributes of an element are the same if they
agree in their namespace and in the rest of their names, whatever labels they are written with.
-/

namespace OfficeFormula.Markup.Xml

/-- Where the namespaces of XML itself are. -/
def namespaceHost : Text := "http://www.w3.org/".toList

/-- The namespace that the label `xml` always stands for. -/
def xmlNamespace : Text := namespaceHost ++ "XML/1998/namespace".toList

/-- The namespace of the declarations themselves, which cannot be declared. -/
def declarationNamespace : Text := namespaceHost ++ "2000/xmlns/".toList

/-- The label that an attribute declares. -/
def declaredLabel? (attr : String × Text) : Option Text :=
  Text.after? "xmlns:".toList attr.1.toList

/-- An attribute that declares a namespace, for a label or for names without one. -/
def isDeclaration (attr : String × Text) : Bool :=
  attr.1 == "xmlns" || (declaredLabel? attr).isSome

/-- A namespace that a declaration may name. -/
def isDeclarable (space : Text) : Bool :=
  isAddress space && space ≠ xmlNamespace && space ≠ declarationNamespace

/-- The attribute is no declaration, or one that is allowed. Only names without a label may be
without a namespace; the label `xml` keeps its own. -/
def isLawful (attr : String × Text) : Bool :=
  match declaredLabel? attr with
  | some label =>
    if label = "xml".toList then attr.2 = xmlNamespace
    else label ≠ "xmlns".toList && attr.2 ≠ [] && isDeclarable attr.2
  | none => attr.1 ≠ "xmlns" || attr.2 = [] || isDeclarable attr.2

/-- The labels in force, the innermost first, with the namespaces they stand for. -/
abbrev Scope := List (Text × Text)

namespace Scope

/-- What is in force without any declaration. -/
def outermost : Scope := [("xml".toList, xmlNamespace)]

/-- What is in force in an element with these attributes. -/
def enter (s : Scope) (attrs : List (String × Text)) : Scope :=
  (attrs.filterMap fun a => (declaredLabel? a).map (·, a.2)) ++ s

/-- The label of the name, if it has one, is declared. -/
def binds (s : Scope) (name : String) : Bool :=
  (prefixOf? name).all fun label => (s.lookup label).isSome

/-- The namespace of an attribute and the rest of its name. -/
def expand (s : Scope) (name : String) : Text × Text :=
  (((prefixOf? name).bind fun label => s.lookup label).getD [], localName name)

end Scope

/-- Nothing occurs twice. -/
def areDistinct {α : Type} [BEq α] : List α → Bool
  | [] => true
  | a :: as => !as.contains a && areDistinct as

/-- A value by which an element can be identified: a name without a colon, perhaps among blanks. -/
def isIdentifier (value : Text) : Bool :=
  match value.dropWhile isSpace with
  | [] => false
  | c :: cs => isNameStart c && (cs.dropWhile isNameChar).all isSpace

end OfficeFormula.Markup.Xml
