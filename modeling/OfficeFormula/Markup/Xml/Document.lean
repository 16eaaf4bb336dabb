import OfficeFormula.Markup.Tree
import OfficeFormula.Markup.Xml.Namespace
import OfficeFormula.Markup.Xml.Prolog

/-!
# XML documents

A document is one element with its content. Tags must match, names and identifiers must be lawful,
and elements stand at most `maxDepth` deep.
-/

namespace OfficeFormula.Markup.Xml

/-- How deep elements may stand in one another. -/
def maxDepth : Nat := 256

/-- An element whose end has not been met. -/
structure Open where
  name : String
  attrs : List (String × Text)
  /-- The labels declared here or further out. -/
  scope : Scope
  /-- The content so far, the last node first. -/
  content : List Node

/-- The element that a start tag opens inside others whose labels are `outer`. -/
def open? (outer : Scope) (name : String) (attrs : List (String × Text)) : Option Open :=
  let scope := outer.enter attrs
  let own := attrs.filter fun a => !isDeclaration a
  if attrs.all isLawful
      && areDistinct (attrs.map (·.1))
      && scope.binds name
      && own.all (fun a => scope.binds a.1)
      && areDistinct (own.map fun a => scope.expand a.1) then
    some ⟨name, own, scope, []⟩
  else none

/-- The element with its content. -/
def Open.close (o : Open) : Node :=
  .element o.name (o.attrs.map fun a => (a.1, some a.2)) o.content.reverse

/-- What has been read of a document. -/
structure Progress where
  /-- The open elements, the innermost first. -/
  stack : List Open
  /-- The outermost element, once it has ended. -/
  root : Option Node
  /-- The identifiers that elements have been given. -/
  ids : List Text

namespace Progress

/-- The labels that an element may use. -/
def scope (p : Progress) : Scope :=
  match p.stack with
  | [] => Scope.outermost
  | o :: _ => o.scope

/-- The document after a start tag. -/
def start (p : Progress) (name : String) (attrs : List (String × Text)) : Option Progress := do
  let o ← open? p.scope name attrs
  match o.attrs.lookup "xml:id" with
  | none => return { p with stack := o :: p.stack }
  | some id =>
    if isIdentifier id && !p.ids.contains id then
      return { p with stack := o :: p.stack, ids := id :: p.ids }
    else none

/-- The document after one more event. -/
def step (p : Progress) (e : Event) : Option Progress :=
  match p.stack with
  | [] =>
    match e with
    | .start name attrs => if p.root.isSome then none else p.start name attrs
    | .text t => if t.all isSpace then some p else none
    | .aside => some p
    | .close _ | .quoted _ => none
  | o :: outer =>
    let add (n : Node) : Progress :=
      { p with stack := { o with content := addNode n o.content } :: outer }
    match e with
    | .start name attrs => if p.stack.length ≥ maxDepth then none else p.start name attrs
    | .text t | .quoted t => some (if t = [] then p else add (.text t))
    | .aside => some (add (.comment []))
    | .close name =>
      if name = o.name then
        match outer with
        | [] => some { p with stack := [], root := some o.close }
        | parent :: others =>
          some { p with stack := { parent with content := o.close :: parent.content } :: others }
      else none

end Progress

/-- Line ends of every kind as newlines. -/
def normalizeLineEnds : Text → Text
  | [] => []
  | '\r' :: '\n' :: cs => '\n' :: normalizeLineEnds cs
  | '\r' :: cs => '\n' :: normalizeLineEnds cs
  | c :: cs => c :: normalizeLineEnds cs

/-- The text without a byte order mark at its head. -/
def dropByteOrderMark : Text → Text
  | '\ufeff' :: cs => cs
  | cs => cs

/-- The element of a well-formed document. -/
def read? (t : Text) : Option Node := do
  let t ← decode? (dropByteOrderMark t)
  let events ← document.readAll? (normalizeLineEnds t)
  let read ← events.foldlM Progress.step ⟨[], none, []⟩
  if read.stack.isEmpty then read.root else none

end OfficeFormula.Markup.Xml
