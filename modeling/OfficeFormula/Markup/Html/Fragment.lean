import OfficeFormula.Markup.Html.Event
import OfficeFormula.Markup.Xml.Document
import OfficeFormula.Text.Blank
import OfficeFormula.Text.Fold

/-!
# Fragments of HTML

A fragment is the content of the body of a document. Where tags do not match, the end of an element
is implied by a start tag that cannot stand inside it or by the end of an element around it; an end
tag with nothing to close is ignored.
-/

namespace OfficeFormula.Markup.Html

/-- An element whose end has not been met. -/
structure Open where
  name : String
  attrs : List Attr
  /-- The content so far, the last node first. -/
  content : List Node

/-- The element with its content. -/
def Open.close (o : Open) : Node := .element o.name o.attrs o.content.reverse

/-- What has been read of a fragment. -/
structure Progress where
  /-- The open elements, the innermost first. -/
  stack : List Open
  /-- The finished nodes outside all open elements, the last one first. -/
  done : List Node

namespace Progress

/-- One more node inside the innermost open element. -/
def add (p : Progress) (n : Node) : Progress :=
  match p.stack with
  | [] => { p with done := addNode n p.done }
  | o :: outer => { p with stack := { o with content := addNode n o.content } :: outer }

/-- The innermost open element ended. -/
def closeOne (p : Progress) : Progress :=
  match p.stack with
  | [] => p
  | o :: outer => add { p with stack := outer } o.close

/-- The `n` innermost open elements ended. -/
def closeMany (n : Nat) (p : Progress) : Progress := n.repeat closeOne p

/-- How many of the innermost open elements a start tag ends. -/
def endedAtStart (tag : String) (stack : List Open) : Nat :=
  (stack.takeWhile fun o => endsAtStart o.name tag).length

/-- How many of the innermost open elements an end tag ends. -/
def endedAtEnd (tag : String) (stack : List Open) : Nat :=
  let inner := stack.takeWhile fun o => o.name ≠ tag && endRank o.name ≤ endRank tag
  match stack.drop inner.length with
  | o :: _ => if o.name = tag then inner.length + 1 else 0
  | [] => 0

/-- The fragment after one more event. -/
def step (p : Progress) : Event → Progress
  | .start tag attrs closes =>
    if ["html", "head", "body"].contains tag then p
    else
      let p := p.closeMany (endedAtStart tag p.stack)
      if closes || voidElements.contains tag then p.add (.element tag attrs [])
      else { p with stack := ⟨tag, attrs, []⟩ :: p.stack }
  | .close tag => p.closeMany (endedAtEnd tag p.stack)
  | .text t => if t = [] then p else p.add (.text t)
  | .comment t => p.add (.comment t)

/-- The nodes of the fragment, all open elements ended. -/
def finish (p : Progress) : List Node := (p.closeMany p.stack.length).done.reverse

end Progress

/-- The nodes that events make up. -/
def nodesOfEvents (es : List Event) : List Node := (es.foldl Progress.step ⟨[], []⟩).finish

/-- Whether an event stands in the head of a document: nothing of it is in the body. -/
def isHeadEvent : Event → Bool
  | .start tag _ _ => ["html", "head"].contains tag || headElements.contains tag
  | .close tag => tag ≠ "body"
  | .text t => t.all isSpace
  | .comment _ => true

/-- The events in the body of a document whose head is left; a document may end before its body. -/
def bodyEvents? : List Event → Option (List Event)
  | [] => none
  | .start "body" _ _ :: es => some es
  | .start tag attrs closes :: .text t :: es =>
    if isHeadEvent (.start tag attrs closes) then
      if Content.ofElement tag = .nodes then bodyEvents? (.text t :: es) else bodyEvents? es
    else some (.start tag attrs closes :: .text t :: es)
  | .text t :: es =>
    if t.all isSpace then bodyEvents? es else some (.start "p" [] false :: .text t :: es)
  | e :: es => if isHeadEvent e then bodyEvents? es else some (e :: es)

/-- The end of the body or of the document. -/
def isBodyEnd : Event → Bool
  | .close tag => tag = "body" || tag = "html"
  | _ => false

/-- The text is a whole document. -/
def isDocument (t : Text) : Bool :=
  let t := t.dropWhile isBlank
  Text.startsWithWord "<html".toList t || Text.startsWithWord "<!doctype".toList t

/-- The nodes without text at their head that is all blank. -/
def dropBlankText : List Node → List Node
  | .text t :: ns => if t.all isBlank then ns else .text t :: ns
  | ns => ns

/-- What is put after a fragment to make it the body of a document. -/
def documentEnd : Text := "</body></html>".toList

/-- Why a document cannot be read. -/
inductive Unreadable where
  /-- It has neither an element nor text. -/
  | empty
  /-- It ends before its body. -/
  | noBody
deriving DecidableEq, Repr

def Unreadable.text : Unreadable → String
  | empty => "Document is empty"
  | noBody => "Document has no body"

/-- The event brings an element about, if only that of the document. -/
def isContentEvent : Event → Bool
  | .start _ _ _ => true
  | .text t => !t.all isSpace
  | .close _ | .comment _ => false

/-- The events of the body of a document. -/
def documentEvents (t : Text) : Except Unreadable (List Event) :=
  let es := events (Xml.normalizeLineEnds t)
  match bodyEvents? es with
  | some body => .ok (body.takeWhile fun e => !isBodyEnd e)
  | none => .error (if es.any isContentEvent then .noBody else .empty)

/-- The nodes of a fragment, or of the body of a document. What a fragment leaves open reaches over
the end of the document. A fragment can always be read. -/
def readFragment (t : Text) : Except Unreadable (List Node) := do
  let es ← if isDocument t then documentEvents t
    else .ok (events (Xml.normalizeLineEnds (t ++ documentEnd)))
  return dropBlankText (nodesOfEvents es)

end OfficeFormula.Markup.Html
