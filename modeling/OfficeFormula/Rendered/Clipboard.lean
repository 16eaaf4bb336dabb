import OfficeFormula.Markup.Html.Render
import OfficeFormula.Rendered.Compile
import OfficeFormula.Span.Protect

/-!
# Web pages ready to be pasted

Every rendered formula of a fragment is replaced by a wrapper with the markup to paste, and all else
stays in its place. The formulas are found by the element that a renderer puts around them, one kind
of element after the other. While that goes on, a placeholder stands for each formula that has been
found; what is found inside a formula that has been replaced is not looked at again.
-/

namespace OfficeFormula.Rendered

open Markup (Node)
open Markup.Html (Element)
open Report (Reported)

/-- The element that a renderer puts around a formula. -/
inductive Container where
  /-- An element with this class. -/
  | hasClass (word : String)
  | displayedMathJax
  | mathJax

namespace Container

/-- All kinds of containers, those of formulas on a line of their own first. -/
def all : List Container := [
  hasClass "katex-display", hasClass "MathJax_Display", displayedMathJax, hasClass "katex",
  hasClass "MathJax", mathJax]

/-- The element is a container of this kind. -/
def holds (c : Container) (e : Element) : Bool :=
  match c with
  | hasClass word => e.hasClass word
  | displayedMathJax => e.name = "mjx-container" && e.attr? "display" == some "true".toList
  | mathJax => e.name = "mjx-container"

end Container

/-- The container is for a formula on a line of its own. -/
def isDisplayContainer (e : Element) : Bool :=
  let classes := ((e.attr? "class").getD []).wordsBy isBlank
  classes.contains "katex-display".toList || classes.contains "MathJax_Display".toList
    || e.attr? "display" == some "true".toList || e.attr? "display" == some "block".toList

/-- What a container is replaced by: an element that holds a placeholder. -/
def wrapper (e : Element) (word : Text) : Node :=
  .element (if isDisplayContainer e then "div" else "span") [] [.text word]

mutual

/-- Puts wrappers in place of the outermost containers of one kind. Gives the containers that have
been replaced, after those in `found`; their places there number the placeholders. -/
def setAside (c : Container) (found : List Element) : Node → List Element × Node
  | .element name attrs children =>
    if c.holds ⟨name, attrs, children⟩ then
      (found ++ [⟨name, attrs, children⟩],
        wrapper ⟨name, attrs, children⟩ (Span.placeholder found.length))
    else
      let (found, children) := setAsideAll c found children
      (found, .element name attrs children)
  | .text t => (found, .text t)
  | .comment t => (found, .comment t)

def setAsideAll (c : Container) (found : List Element) : List Node → List Element × List Node
  | [] => (found, [])
  | n :: ns =>
    let (found, n) := setAside c found n
    let (found, ns) := setAsideAll c found ns
    (found, n :: ns)

end

/-- Puts wrappers in place of the containers of all kinds. -/
def setAsideContainers (ns : List Node) : List Element × List Node :=
  Container.all.foldl (fun s c => setAsideAll c s.1 s.2) ([], ns)

/-- Elements that are not for pasting. -/
def removedElements : List String := ["script", "style", "meta", "link"]

/-- The words that stand for some results, in order, with the results. -/
def replacements (results : List Text) : List (Text × Text) :=
  results.zipIdx.map fun r => (Span.placeholder r.2, r.1)

/-- The markup to paste for a fragment. The markup of an element in it can always be read. -/
def convertNodes (settings : Settings) (ns : List Node) : Reported Text := do
  let (found, ns) := setAsideContainers (Markup.Html.dropElementsAll removedElements ns)
  let converted ← found.mapM fun e => compileForClipboard settings (Markup.Html.render false e.node)
  return Span.restore (replacements converted) (Markup.Html.renderContent ns)

/-- The markup to paste for a written fragment. -/
def convertPage (settings : Settings) (markup : Text) : Attempt Text := do
  convertNodes settings (← Markup.Html.readFragment markup)

end OfficeFormula.Rendered
