import OfficeFormula.Markup.Html.Element
import OfficeFormula.Markup.Html.Reference
import OfficeFormula.Markup.Tree
import OfficeFormula.Text.Reader
import OfficeFormula.Text.Word

/-!
# Lexical units of HTML

A document is read as a list of events: tags, text and comments. Every text can be read: what is no
tag, reference or comment is text. A tag that the end of the document cuts off is lost.
-/

namespace OfficeFormula.Markup.Html

inductive Event where
  /-- A start tag; one that `closes` itself has no content. -/
  | start (name : String) (attrs : List Attr) (closes : Bool)
  | close (name : String)
  | text (t : Text)
  | comment (t : Text)

/-- White space between the parts of a tag. -/
def isSpace (c : Char) : Bool := c == ' ' || c == '\t' || c == '\n' || c == '\x0c' || c == '\r'

def space? : Reader Unit := do
  let _ ← Reader.takeWhile isSpace

/-- What ends the name of an element. -/
def endsName (c : Char) : Bool := isSpace c || c == '/' || c == '>'

/-- Letters of ASCII in lower case. -/
def nameOf (t : Text) : String := String.ofList (t.map Char.toLower)

/-- The name of an element: it begins with a letter. -/
def tagName : Reader String := do
  let c ← Reader.char isAsciiLetter
  let cs ← Reader.takeWhile (!endsName ·)
  return nameOf (c :: cs)

/-- The name of an attribute, which ends before an equals sign unless it begins with it. -/
def attrName : Reader String := do
  let c ← Reader.char (!endsName ·)
  let cs ← Reader.takeWhile fun c => !endsName c && c != '='
  return nameOf (c :: cs)

/-- Characters of which `p` holds, with those that references stand for. -/
def valueWhere (p : Char → Bool) : Reader Text := do
  let parts ← Reader.many (reference true <|> do return [← Reader.char p])
  return parts.flatten

/-- A value in one kind of quote; one that is not closed takes the rest of the document. -/
def quotedValue (quote : Char) : Reader Text := do
  let _ ← Reader.char (· = quote)
  let value ← valueWhere (· ≠ quote)
  (do let _ ← Reader.char (· = quote)) <|> Reader.atEnd
  return value

/-- A value without quotes, up to white space or the end of the tag. -/
def bareValue : Reader Text := Reader.filter (· ≠ []) (valueWhere fun c => !isSpace c && c != '>')

/-- An attribute, with the white space after it. -/
def attributePair : Reader (List Attr) := do
  let key ← attrName
  space?
  let value ←
    (do
      Reader.literal "="
      space?
      (do return some (← quotedValue '"' <|> quotedValue '\'' <|> bareValue)) <|> return none)
    <|> return none
  space?
  return [(key, value)]

/-- A slash that does not end the tag, with the white space after it. -/
def straySlash : Reader (List Attr) := do
  Reader.literal "/"
  (fun t => if t.head? = some '>' then none else some ((), t) : Reader Unit)
  space?
  return []

/-- The attributes without those whose name has occurred before. -/
def distinctAttrs : List Attr → List Attr
  | [] => []
  | a :: as => a :: (distinctAttrs as).filter (·.1 ≠ a.1)

/-- What stands between the name and the end of a tag. -/
def attributes : Reader (List Attr) := do
  space?
  let attrs ← Reader.many (attributePair <|> straySlash)
  return distinctAttrs attrs.flatten

/-- The text begins with `start`, in letters of either case, and a name ends there. -/
def startsWithTag (start : String) (t : Text) : Bool :=
  nameOf (t.take start.length) == start && (t.drop start.length).head?.any endsName

/-- The text begins with the end tag of an element. -/
def startsWithEnd (tag : String) (t : Text) : Bool := startsWithTag ("</" ++ tag) t

/-- How deep a script is in comments that hold scripts. -/
inductive ScriptDepth where
  | outside
  | inComment
  | inCommentedScript
deriving DecidableEq

/-- The depth of a script after the first character of its rest. -/
def ScriptDepth.next (d : ScriptDepth) (t : Text) : ScriptDepth :=
  match d with
  | outside => if Text.startsWith "<!--".toList t then inComment else outside
  | inComment =>
    if Text.startsWith "-->".toList t then outside
    else if startsWithTag "<script" t then inCommentedScript
    else inComment
  | inCommentedScript =>
    if Text.startsWith "-->".toList t then outside
    else if startsWithEnd "script" t then inComment
    else inCommentedScript

/-- The text of a script: its end tag does not count inside a script in a comment. -/
def scriptText (d : ScriptDepth) : Text → Text
  | [] => []
  | c :: cs =>
    if d ≠ .inCommentedScript && startsWithEnd "script" (c :: cs) then []
    else c :: scriptText (d.next (c :: cs)) cs

/-- The text up to the end tag of an element. -/
def textBeforeEnd (tag : String) : Text → Text
  | [] => []
  | c :: cs => if startsWithEnd tag (c :: cs) then [] else c :: textBeforeEnd tag cs

/-- The content of an element that holds no other elements, up to its end tag or the end of the
document. -/
def plainContent (kind : Content) (tag : String) : Reader Text := fun t =>
  let content := match kind with
    | .nodes => []
    | .script => scriptText .outside t
    | .raw | .references => textBeforeEnd tag t
    | .rest => t
  some (if kind = .references then resolve content else content, t.drop content.length)

/-- A start tag, with the content of an element that holds no other elements. -/
def startTag : Reader (List Event) := do
  Reader.literal "<"
  let tag ← tagName
  let attrs ← attributes
  (do
    Reader.literal "/>"
    return [.start tag attrs true])
  <|> (do
    Reader.literal ">"
    let content ← plainContent (Content.ofElement tag) tag
    return .start tag attrs false :: (if content = [] then [] else [.text content]))
  <|> (do
    Reader.atEnd
    return [])

/-- An end tag. One without a name is nothing. -/
def endTag : Reader (List Event) := do
  Reader.literal "</"
  (do
    Reader.literal ">"
    return [])
  <|> (do
    let tag ← tagName
    let _ ← attributes
    (do
      Reader.literal "/>" <|> Reader.literal ">"
      return [.close tag])
    <|> (do
      Reader.atEnd
      return []))

/-- The end of a comment. -/
def commentEnd : Reader Unit := Reader.literal "-->" <|> Reader.literal "--!>"

/-- The text and the end of a comment; one that is not closed takes the rest of the document. -/
def commentText : Reader Text := fun t =>
  match t.before? Text.anyChar fun u => (commentEnd u).isSome with
  | some text => (commentEnd (t.drop text.length)).map fun rest => (text, rest.2)
  | none => some (t, [])

def comment : Reader (List Event) := do
  Reader.literal "<!--"
  (do
    Reader.literal ">" <|> Reader.literal "->"
    return [.comment []])
  <|> (do return [.comment (← commentText)])

/-- The rest of a tag, and its end. -/
def tagRest : Reader Text := do
  let t ← Reader.takeWhile (· ≠ '>')
  Reader.literal ">" <|> return ()
  return t

/-- The kind of the document, which is skipped. -/
def documentType : Reader (List Event) := do
  let _ ← (fun t => if nameOf (t.take 9) = "<!doctype" then some ((), t) else none : Reader Unit)
  let _ ← tagRest
  return []

/-- A declaration, an instruction or an end tag whose name begins with no letter is a comment. -/
def strayTag : Reader (List Event) := do
  let start ← (do Reader.literal "<?"; return ['?'])
    <|> (do Reader.literal "<!" <|> Reader.literal "</"; return [])
  (do
    Reader.atEnd
    return [.text ('<' :: start)])
  <|> (do return [.comment (start ++ (← tagRest))])

/-- Text up to the next tag or reference. -/
def characters : Reader (List Event) := do
  let t ← Reader.filter (· ≠ []) (Reader.takeWhile fun c => c ≠ '<' && c ≠ '&')
  return [.text t]

/-- One event; a less-than sign or an ampersand that begins nothing is text. -/
def event : Reader (List Event) :=
  comment <|> documentType <|> endTag <|> strayTag <|> startTag <|> characters
    <|> (do return [.text (← reference false)])
    <|> (do return [.text [← Reader.char Text.anyChar]])

/-- The events of a document. -/
def events (t : Text) : List Event := (Reader.collect event t).1.flatten

end OfficeFormula.Markup.Html
