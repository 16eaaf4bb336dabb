import OfficeFormula.Text.Basic

/-!
# Elements of HTML

Which elements have no content, which hold raw text, and where the end of an element is implied.
-/

namespace OfficeFormula.Markup.Html

/-- Elements without content and without an end tag. -/
def voidElements : List String := [
  "area", "base", "basefont", "br", "col", "frame", "hr", "img", "input", "isindex", "link", "meta",
  "param"]

/-- Elements whose text is written as it stands. -/
def rawElements : List String := ["script", "style"]

/-- What an element holds. -/
inductive Content where
  /-- Text and other elements. -/
  | nodes
  /-- Text as it stands. -/
  | raw
  /-- Text with references. -/
  | references
  /-- Text as it stands, in which a comment may hold scripts. -/
  | script
  /-- The rest of the document. -/
  | rest
deriving DecidableEq

/-- What an element with this name holds. -/
def Content.ofElement (tag : String) : Content :=
  match tag with
  | "script" => .script
  | "style" | "xmp" | "iframe" | "noembed" | "noframes" => .raw
  | "title" | "textarea" => .references
  | "plaintext" => .rest
  | _ => .nodes

/-- Attributes that are written without their value. -/
def booleanAttributes : List String := [
  "checked", "compact", "declare", "defer", "disabled", "ismap", "multiple", "nohref", "noresize",
  "noshade", "nowrap", "readonly", "selected"]

/-- The start tags that end an innermost open element, by the name of that element. -/
def endedBy : List (String × List String) := [
  ("a", ["a", "fieldset", "table", "td", "th"]),
  ("address", ["dd", "dl", "dt", "form", "li", "ul"]),
  ("b", ["center", "p", "td", "th"]),
  ("big", ["p"]),
  ("caption", ["col", "colgroup", "tbody", "tfoot", "thead", "tr"]),
  ("colgroup", ["colgroup", "tbody", "tfoot", "thead", "tr"]),
  ("dd", ["dt"]),
  ("dir", ["dd", "dl", "dt", "form", "ul"]),
  ("dl", ["form", "li"]),
  ("dt", ["dd", "dl"]),
  ("font", ["center", "td", "th"]),
  ("form", ["form"]),
  ("h1", ["fieldset", "form", "li", "p", "table"]),
  ("h2", ["fieldset", "form", "li", "p", "table"]),
  ("h3", ["fieldset", "form", "li", "p", "table"]),
  ("h4", ["fieldset", "form", "li", "p", "table"]),
  ("h5", ["fieldset", "form", "li", "p", "table"]),
  ("h6", ["fieldset", "form", "li", "p", "table"]),
  ("i", ["center"]),
  ("li", ["li"]),
  ("menu", ["dd", "dl", "dt", "form", "ul"]),
  ("ol", ["form"]),
  ("option", ["optgroup", "option"]),
  ("p", ["address", "blockquote", "caption", "center", "col", "colgroup", "dd", "dir", "div", "dl",
    "dt", "frameset", "h1", "h2", "h3", "h4", "h5", "h6", "hr", "li", "listing", "menu", "multicol",
    "ol", "p", "pre", "table", "tbody", "td", "tfoot", "th", "title", "tr", "ul", "xmp"]),
  ("pre", ["dd", "dl", "dt", "fieldset", "form", "li", "table", "ul"]),
  ("s", ["p"]),
  ("small", ["p"]),
  ("span", ["td", "th"]),
  ("strike", ["p"]),
  ("tbody", ["tbody", "tfoot"]),
  ("td", ["tbody", "td", "tfoot", "th", "tr"]),
  ("tfoot", ["tbody"]),
  ("th", ["tbody", "td", "tfoot", "th", "tr"]),
  ("thead", ["tbody", "tfoot"]),
  ("tr", ["tbody", "tfoot", "tr"]),
  ("tt", ["p"]),
  ("u", ["p", "td", "th"]),
  ("ul", ["address", "form", "menu", "pre"])]

/-- The start tag `new` ends the innermost open element `name`. -/
def endsAtStart (name new : String) : Bool := ((endedBy.lookup name).getD []).contains new

/-- An end tag reaches through open elements of at most its own rank. -/
def endRank (name : String) : Nat :=
  match name with
  | "div" => 150
  | "td" | "th" => 160
  | "tr" => 170
  | "thead" | "tbody" | "tfoot" => 180
  | "table" => 190
  | "head" | "body" => 200
  | "html" => 220
  | _ => 100

/-- Elements of the head of a document. -/
def headElements : List String := ["script", "style", "meta", "link", "title", "base"]

end OfficeFormula.Markup.Html
