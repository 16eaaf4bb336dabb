import OfficeFormula.Markup.Xml.Character
import OfficeFormula.Text.Digit
import OfficeFormula.Text.Reader
import OfficeFormula.Text.Word

/-!
# Lexical units of XML

A document is read as a list of events: tags, text and comments. Each event is well formed by
itself; that tags match is the business of the tree.
-/

namespace OfficeFormula.Markup.Xml

inductive Event where
  | start (name : String) (attrs : List (String × Text))
  | close (name : String)
  /-- Characters as they stand. -/
  | text (t : Text)
  /-- Characters that were written as a reference or in a literal section. -/
  | quoted (t : Text)
  /-- A comment or a processing instruction. -/
  | aside

/-- A name without a colon. -/
def plainName : Reader Text := do
  let c ← Reader.char isNameStart
  let cs ← Reader.takeWhile isNameChar
  return c :: cs

/-- A name, with at most one colon. -/
def name : Reader String := do
  let first ← plainName
  (do
    Reader.literal ":"
    let second ← plainName
    return String.ofList (first ++ ':' :: second)) <|> return String.ofList first

def space : Reader Unit := do
  let _ ← Reader.char isSpace
  let _ ← Reader.takeWhile isSpace

def space? : Reader Unit := do
  let _ ← Reader.takeWhile isSpace

/-- The number that digits spell in a base. -/
def numberOf (base : Nat) (digits : List Nat) : Nat := digits.foldl (fun n d => base * n + d) 0

/-- The value of a hexadecimal digit. -/
def hexDigit? (c : Char) : Option Nat :=
  if isAsciiDigit c then some (c.toNat - '0'.toNat)
  else if 'a' ≤ c && c ≤ 'f' then some (c.toNat - 'a'.toNat + 10)
  else if 'A' ≤ c && c ≤ 'F' then some (c.toNat - 'A'.toNat + 10)
  else none

/-- The character with this code point, if a document may hold it. -/
def charOf? (n : Nat) : Option Char :=
  if n.isValidChar && isAllowed (Char.ofNat n) then some (Char.ofNat n) else none

/-- A nonempty run of digits, as the character it numbers. -/
def numbered (base : Nat) (isDigit : Char → Bool) : Reader Char := do
  let digits ← Reader.filter (· ≠ []) (Reader.takeWhile isDigit)
  match charOf? (numberOf base (digits.filterMap hexDigit?)) with
  | some c => return c
  | none => failure

/-- The characters that have a name. -/
def namedCharacters : List (String × Char) := [
  ("amp", '&'), ("lt", '<'), ("gt", '>'), ("quot", '"'), ("apos", '\'')]

/-- A character written as a reference, by number or by name. -/
def reference : Reader Char := do
  Reader.literal "&"
  let c ←
    (do Reader.literal "#x"; numbered 16 fun c => (hexDigit? c).isSome)
    <|> (do Reader.literal "#"; numbered 10 isAsciiDigit)
    <|> (do
      match namedCharacters.lookup (← name) with
      | some c => return c
      | none => failure)
  Reader.literal ";"
  return c

/-- What a document itself defines: texts that references stand for, by their names, and the
attributes that elements have without saying so. -/
structure Definitions where
  texts : List (Text × Text)
  attrs : List (String × String × Text)

namespace Definitions

def none : Definitions := ⟨[], []⟩

/-- All that two sets of definitions define. Where both define a name, the first counts. -/
def append (a b : Definitions) : Definitions := ⟨a.texts ++ b.texts, a.attrs ++ b.attrs⟩

instance : Append Definitions := ⟨append⟩

/-- The attributes of an element, with those that it has without saying so. -/
def complete (ds : Definitions) (tag : String) (attrs : List (String × Text)) :
    List (String × Text) :=
  ds.attrs.foldl (fun attrs (element, key, value) =>
    if element = tag && (attrs.lookup key).isNone then attrs ++ [(key, value)] else attrs) attrs

end Definitions

/-- The text that a reference to a definition stands for. -/
def definedText (ds : Definitions) : Reader Text := do
  Reader.literal "&"
  let name ← plainName
  Reader.literal ";"
  match ds.texts.lookup name with
  | some t => return t
  | none => failure

/-- A character of an attribute value. White space that stands as it is counts as a space. -/
def valueChar (p : Char → Bool) : Reader Char := do
  let c ← Reader.char fun c => p c && c ≠ '<' && c ≠ '&' && isAllowed c
  return if isSpace c then ' ' else c

/-- A stretch of an attribute value whose characters satisfy `p`, with its references resolved. At
most `n` definitions stand inside one another. -/
def valueText (ds : Definitions) : (n : Nat) → (p : Char → Bool) → Reader Text
  | 0, p => Reader.many (valueChar p <|> reference)
  | n + 1, p => do
    let parts ← Reader.many ((do return [← valueChar p <|> reference])
      <|> (do
        match (valueText ds n fun _ => true).readAll? (← definedText ds) with
        | some t => return t
        | none => failure))
    return parts.flatten

/-- A value in one kind of quote. -/
def valueIn (ds : Definitions) (quote : Char) : Reader Text := do
  let _ ← Reader.char (· = quote)
  let t ← valueText ds ds.texts.length (· ≠ quote)
  let _ ← Reader.char (· = quote)
  return t

/-- A value in quotes. -/
def quotedValue (ds : Definitions) : Reader Text := valueIn ds '"' <|> valueIn ds '\''

/-- An equals sign with white space around it. -/
def equals : Reader Unit := do
  space?
  Reader.literal "="
  space?

/-- An attribute after the white space that separates it. -/
def attributePair (ds : Definitions) : Reader (String × Text) := do
  space
  let key ← name
  equals
  let value ← quotedValue ds
  return (key, value)

/-- A start tag; one that closes itself is an element without content. -/
def startTag (ds : Definitions) : Reader (List Event) := do
  Reader.literal "<"
  let tag ← name
  let attrs := ds.complete tag (← Reader.many (attributePair ds))
  space?
  (do Reader.literal "/>"; return [.start tag attrs, .close tag])
    <|> (do Reader.literal ">"; return [.start tag attrs])

def endTag : Reader (List Event) := do
  Reader.literal "</"
  let tag ← name
  space?
  Reader.literal ">"
  return [.close tag]

/-- A comment, which holds no two hyphens in a row. -/
def comment : Reader (List Event) := do
  Reader.literal "<!--"
  let _ ← Reader.filter (·.all isAllowed) (Reader.upTo "--")
  Reader.literal ">"
  return [.aside]

/-- A processing instruction. The name of the declaration is reserved, in whatever case. -/
def instruction : Reader (List Event) := do
  Reader.literal "<?"
  let _ ← Reader.filter (fun n => n.map Char.toLower ≠ "xml".toList) plainName
  (do Reader.literal "?>") <|> (do
    space
    let _ ← Reader.filter (·.all isAllowed) (Reader.upTo "?>"))
  return [.aside]

/-- A literal section. -/
def literalSection : Reader (List Event) := do
  Reader.literal "<![CDATA["
  let t ← Reader.filter (·.all isAllowed) (Reader.upTo "]]>")
  return [.quoted t]

/-- Characters up to the next tag or reference. The end of a literal section is not among them. -/
def characters : Reader (List Event) := do
  let t ← Reader.filter (fun t => t ≠ [] && t.all isAllowed && !Text.contains "]]>".toList t)
    (Reader.takeWhile fun c => c ≠ '<' && c ≠ '&')
  return [.text t]

/-- The depth after an event, if it ends no more elements than have begun. -/
def depthAfter (depth : Nat) : Event → Option Nat
  | .start _ _ => some (depth + 1)
  | .close _ => if depth = 0 then none else some (depth - 1)
  | .text _ | .quoted _ | .aside => some depth

/-- As many elements end as begin. -/
def isBalanced (es : List Event) : Bool := es.foldlM depthAfter 0 == some 0

/-- One event, definitions apart. -/
def plainEvent (ds : Definitions) : Reader (List Event) :=
  comment <|> instruction <|> literalSection <|> endTag <|> startTag ds <|> characters
    <|> (do return [.quoted [← reference]])

/-- One event of the content of a document, or the events that a definition stands for. These make
up whole elements. At most `n` definitions stand inside one another. -/
def eventWith (ds : Definitions) : (n : Nat) → Reader (List Event)
  | 0 => plainEvent ds
  | n + 1 => plainEvent ds <|> do
    match (do return (← Reader.many (eventWith ds n)).flatten : Reader _).readAll?
        (← definedText ds) with
    | some es => if isBalanced es then return .quoted [] :: es else failure
    | none => failure

/-- The events of the content of a document. -/
def content (ds : Definitions) : Reader (List Event) := do
  return (← Reader.many (eventWith ds ds.texts.length)).flatten

end OfficeFormula.Markup.Xml
