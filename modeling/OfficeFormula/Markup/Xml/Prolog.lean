import OfficeFormula.Markup.Xml.Event

/-!
# The prolog of XML documents

Before its element, a document may declare its version and its encoding, and may say of what type it
is. The declarations of a type can define texts for references, and attributes that elements have
without saying so; what else they declare makes no difference to the content.
-/

namespace OfficeFormula.Markup.Xml

/-- How characters are written as bytes. -/
inductive Encoding where
  | unicode
  /-- One byte for each of the first 256 characters. -/
  | latin
  | ascii
deriving DecidableEq, Repr

/-- The encodings that a document may declare, by their names in lower case. -/
def encodings : List (String × Encoding) := [
  ("utf-8", .unicode), ("utf8", .unicode), ("us-ascii", .ascii), ("ascii", .ascii),
  ("iso-8859-1", .latin), ("iso8859-1", .latin), ("iso-latin-1", .latin), ("latin1", .latin)]

/-- What the bytes of a text say in an encoding. -/
def Encoding.decode? (e : Encoding) (t : Text) : Option Text :=
  match e with
  | .unicode => some t
  | .latin => some (t.flatMap fun c => (String.utf8EncodeChar c).map fun b => Char.ofNat b.toNat)
  | .ascii => if t.all (·.toNat < 0x80) then some t else none

/-- The value of one part of the declaration at the head of a document, in quotes. -/
def declared {α : Type} (key : String) (value : Reader α) : Reader α := do
  space
  Reader.literal key
  equals
  let quote ← Reader.char fun c => c = '"' || c = '\''
  let a ← value
  let _ ← Reader.char (· = quote)
  return a

/-- The part of the declaration, if it is there at all. -/
def declared? {α : Type} (key : String) (value : Reader α) : Reader (Option α) := fun t =>
  let rest : Text := t.dropWhile isSpace
  if Text.startsWith key.toList rest then (declared key value t).map fun (a, t) => (some a, t)
  else some (none, t)

/-- The version of a document: any of the first generation. -/
def version : Reader Unit := do
  Reader.literal "1."
  let _ ← Reader.takeWhile isAsciiDigit

/-- The name of an encoding that can be read, in whatever case. -/
def encoding : Reader Encoding := do
  let name ← Reader.takeWhile fun c =>
    isAsciiLetter c || isAsciiDigit c || c = '-' || c = '_' || c = '.'
  match encodings.lookup (String.ofList (name.map Char.toLower)) with
  | some e => return e
  | none => failure

/-- Whether a document stands alone. -/
def standalone : Reader Unit := Reader.literal "yes" <|> Reader.literal "no"

/-- The declaration at the head of a document; gives the encoding that it declares. -/
def declaration : Reader Encoding := do
  Reader.literal "<?xml"
  declared "version" version
  let e ← declared? "encoding" encoding
  let _ ← declared? "standalone" standalone
  space?
  Reader.literal "?>"
  return e.getD .unicode

/-- A quoted string of a declaration. -/
def quotedString : Reader Unit := do
  let quote ← Reader.char fun c => c = '"' || c = '\''
  let _ ← Reader.takeWhile fun c => c ≠ quote && isAllowed c
  let _ ← Reader.char (· = quote)

/-- Where something that is declared is kept. -/
def externalId : Reader Unit :=
  (do Reader.literal "SYSTEM"; space; quotedString)
    <|> (do Reader.literal "PUBLIC"; space; quotedString; space; quotedString)

/-- A reference to a definition, as it is written. -/
def namedReference : Reader Text := do
  Reader.literal "&"
  let name ← plainName
  Reader.literal ";"
  return '&' :: name ++ [';']

/-- A text in quotes that references are to stand for. Numbered characters are resolved at once. -/
def definedValue : Reader Text := do
  let quote ← Reader.char fun c => c = '"' || c = '\''
  let parts ← Reader.many (namedReference
    <|> (do return [← reference])
    <|> (do return [← Reader.char fun c => c ≠ quote && c ≠ '&' && c ≠ '%' && isAllowed c]))
  let _ ← Reader.char (· = quote)
  return parts.flatten

/-- The declaration of a text for references. -/
def textDeclaration : Reader Definitions := do
  Reader.literal "<!ENTITY"
  space
  (do
    Reader.literal "%"
    space
    let _ ← plainName
    space
    externalId <|> (do let _ ← definedValue)
    return .none)
  <|> (do
    let name ← plainName
    space
    (do return ⟨[(name, ← definedValue)], []⟩)
    <|> (do
      externalId
      (do space; Reader.literal "NDATA"; space; let _ ← plainName) <|> return ()
      return .none))

/-- The alternatives of something that is declared, in parentheses. -/
def alternatives : Reader Unit := do
  Reader.literal "("
  let _ ← Reader.filter (fun t => t.count '(' + 1 = t.count ')')
    (Reader.takeWhile fun c => c ≠ '<' && c ≠ '>' && c ≠ '"' && c ≠ '\'')

/-- The declaration of what an element may hold. -/
def elementDeclaration : Reader Definitions := do
  Reader.literal "<!ELEMENT"
  space
  let _ ← name
  space
  Reader.literal "EMPTY" <|> Reader.literal "ANY" <|> alternatives
  return .none

/-- The alternatives for the value of an attribute. -/
def valueAlternatives : Reader Unit := do
  Reader.literal "("
  let _ ← Reader.takeWhile fun c => isNameChar c || isSpace c || c = ':' || c = '|'
  Reader.literal ")"

/-- The type of an attribute. -/
def attributeType : Reader Unit :=
  (["CDATA", "IDREFS", "IDREF", "ID", "ENTITY", "ENTITIES", "NMTOKENS", "NMTOKEN"].foldr
      (fun word others => Reader.literal word <|> others) failure)
    <|> (do Reader.literal "NOTATION"; space; valueAlternatives)
    <|> valueAlternatives

/-- The value that an attribute has without saying so. -/
def defaultValue : Reader (Option Text) :=
  (do Reader.literal "#REQUIRED"; return none)
    <|> (do Reader.literal "#IMPLIED"; return none)
    <|> (do
      (do Reader.literal "#FIXED"; space) <|> return ()
      return some (← quotedValue .none))

/-- The declaration of the attributes of an element. -/
def attributeDeclaration : Reader Definitions := do
  Reader.literal "<!ATTLIST"
  space
  let element ← name
  let attrs ← Reader.many do
    space
    let key ← name
    space
    attributeType
    space
    return (← defaultValue).toList.map fun value => (element, key, value)
  return ⟨[], attrs.flatten⟩

/-- The declaration of a notation. -/
def notationDeclaration : Reader Definitions := do
  Reader.literal "<!NOTATION"
  space
  let _ ← plainName
  space
  externalId <|> (do Reader.literal "PUBLIC"; space; quotedString)
  return .none

/-- One declaration of a document type, or what may stand between two of them. -/
def typeDeclaration : Reader Definitions :=
  (do
    let ds ← textDeclaration <|> elementDeclaration <|> attributeDeclaration <|> notationDeclaration
    space?
    Reader.literal ">"
    return ds)
  <|> (do let _ ← comment <|> instruction; return .none)
  <|> (do space; return .none)

/-- The type of a document, with its definitions. -/
def documentType : Reader Definitions := do
  Reader.literal "<!DOCTYPE"
  space
  let _ ← name
  (do space; externalId) <|> return ()
  space?
  let ds ←
    (do
      Reader.literal "["
      let ds ← Reader.many typeDeclaration
      Reader.literal "]"
      space?
      return ds)
    <|> return []
  Reader.literal ">"
  return ds.foldl Definitions.append .none

/-- White space, comments and instructions around the element of a document. -/
def misc : Reader Unit := do
  let _ ← Reader.many (comment <|> instruction <|> do space; return [])

/-- The events of a whole document. -/
def document : Reader (List Event) := do
  (do let _ ← declaration) <|> return ()
  misc
  let ds ← documentType <|> return .none
  misc
  let es ← content ds
  Reader.atEnd
  return es

/-- A document as its declaration says that it is encoded. -/
def decode? (t : Text) : Option Text :=
  match declaration t with
  | some (e, _) => e.decode? t
  | none => some t

end OfficeFormula.Markup.Xml
