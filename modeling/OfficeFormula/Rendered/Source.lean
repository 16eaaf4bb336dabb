import OfficeFormula.Markup.Html.Fragment
import OfficeFormula.Markup.Html.Select
import OfficeFormula.Text.Fold

/-!
# What a rendered formula was made from

A web page shows a formula as elements that only place glyphs. Its source is kept beside them: as an
annotation, in a script, or in an attribute. `latexSource?` looks at these places one kind after the
other, `plainText?` finds words that can be read in place of the formula.
-/

namespace OfficeFormula.Rendered

open Markup (Node)
open Markup.Html (Element elementsInAll)

/-- A place where the source of a formula is kept. -/
inductive Place where
  /-- The text of an annotation whose encoding is some kind of TeX. -/
  | annotation
  /-- The text of a script whose type is TeX. -/
  | script
  /-- The value of an attribute. -/
  | attr (name : String)

namespace Place

/-- What an element has in this place. -/
def read? (p : Place) (e : Element) : Option Text :=
  match p with
  | annotation =>
    if e.name = "annotation" && ((e.attr? "encoding").any (Text.contains "tex".toList)) then
      some e.textContent
    else none
  | script =>
    if e.name = "script" && ((e.attr? "type").any (Text.startsWith "math/tex".toList)) then
      some e.textContent
    else none
  | attr name => e.attr? name

/-- The places in which LaTeX is looked for, the preferred ones first. -/
def latex : List Place := [
  annotation, attr "data-tex", script, attr "aria-label", attr "alttext",
  attr "data-latex"]

/-- The places in which words are looked for that can be read. -/
def readable : List Place := [
  attr "aria-label", attr "alttext", attr "data-latex"]

end Place

/-- The element is a script for a formula on a line of its own. -/
def isDisplayScript (e : Element) : Bool :=
  e.name = "script" && ((e.attr? "type").any (Text.contains "display".toList))

/-- The first place that is not blank, and the element that has it. -/
def firstFilled? (places : List Place) (es : List Element) : Option (Text × Element) :=
  places.findSome? fun p => es.findSome? fun e => do
    let value ← p.read? e
    if value.trim = [] then none else some (value.trim, e)

/-- The text goes on with an attribute that asks for a line of its own. -/
def asksForDisplay (t : Text) : Bool :=
  match Text.afterWord? "display=".toList t with
  | none => false
  | some value =>
    let value := match value with
      | '"' :: cs | '\'' :: cs => cs
      | cs => cs
    Text.startsWithWord "true".toList value || Text.startsWithWord "block".toList value

/-- The text goes on with the tag of a container that has such an attribute. -/
def asksInContainer (t : Text) : Bool :=
  match Text.afterWord? "mjx-container".toList t with
  | none => false
  | some rest => (rest.before₁? (· ≠ '>') asksForDisplay).isSome

/-- The markup has a mark of formulas that stand on a line of their own. -/
def isDisplayMarkup (markup : Text) : Bool :=
  markup.hasSuffix fun t =>
    Text.startsWithWord "katex-display".toList t
      || Text.startsWithWord "mathjax_display".toList t
      || asksInContainer t

/-- The nodes of written markup; none of a document that cannot be read. -/
def nodesOf (markup : Text) : List Node := (Markup.Html.readFragment markup).toOption.getD []

/-- The elements of written markup. -/
def elementsOf (markup : Text) : List Element := elementsInAll (nodesOf markup)

/-- The LaTeX source of a rendered formula, and whether the formula stands on a line of its own. -/
def latexSource? (markup : Text) : Option Text × Bool :=
  let display := isDisplayMarkup markup
  match firstFilled? Place.latex (elementsOf markup) with
  | some (source, e) => (some source, display || isDisplayScript e)
  | none => (none, display)

/-- Texts longer than this do not stand for a formula. -/
def maxPlainText : Nat := 120

/-- All the text of written markup. -/
def textOf (markup : Text) : Text := Node.textContentAll (nodesOf markup)

/-- Words that can be read in place of a rendered formula. -/
def plainText? (markup : Text) : Option Text :=
  match firstFilled? Place.readable (elementsOf markup) with
  | some (words, _) => some words
  | none =>
    let words := (textOf markup).collapse
    if words = [] || decide (words.length > maxPlainText) then none else some words

end OfficeFormula.Rendered
