import OfficeFormula.Markup.Html.Entity
import OfficeFormula.Markup.Xml.Event
import OfficeFormula.Text.Reader
import OfficeFormula.Text.Word

/-!
# Character references of HTML

A reference names a character or gives its number. What only looks like a reference is text.
-/

namespace OfficeFormula.Markup.Html

/-- What the numbers from 128 to 159 stand for; a number that is not listed stands for itself. -/
def renumbered : List (Nat × Char) := [
  (0x80, '€'), (0x82, '‚'), (0x83, 'ƒ'), (0x84, '„'), (0x85, '…'), (0x86, '†'), (0x87, '‡'),
  (0x88, 'ˆ'), (0x89, '‰'), (0x8a, 'Š'), (0x8b, '‹'), (0x8c, 'Œ'), (0x8e, 'Ž'), (0x91, '‘'),
  (0x92, '’'), (0x93, '“'), (0x94, '”'), (0x95, '•'), (0x96, '–'), (0x97, '—'), (0x98, '˜'),
  (0x99, '™'), (0x9a, 'š'), (0x9b, '›'), (0x9c, 'œ'), (0x9e, 'ž'), (0x9f, 'Ÿ')]

/-- The character with a number; the replacement character where there is none. -/
def numberedChar (n : Nat) : Char :=
  (renumbered.lookup n).getD (if n ≠ 0 && n.isValidChar then Char.ofNat n else '\ufffd')

/-- The digits of a number in a base, and the semicolon that may follow. -/
def numbered (base : Nat) (isDigit : Char → Bool) : Reader Text := do
  let digits ← Reader.filter (· ≠ []) (Reader.takeWhile isDigit)
  Reader.literal ";" <|> return ()
  return [numberedChar (Xml.numberOf base (digits.filterMap Xml.hexDigit?))]

/-- A character of a name. -/
def isEntityChar (c : Char) : Bool := isAsciiLetter c || isAsciiDigit c

/-- The length of the longest old name, at most `n` characters long, that the text begins with. -/
def oldEntityLength : (n : Nat) → Text → Nat
  | 0, _ => 0
  | n + 1, t => if oldEntities.contains (String.ofList (t.take (n + 1))) then n + 1
    else oldEntityLength n t

/-- The characters that a name stands for. In the value of an attribute an old name without a
semicolon must not be followed by a letter, a digit or an equals sign. -/
def named (inValue : Bool) : Reader Text := fun t =>
  let name := t.takeWhile isEntityChar
  let ended := match t.drop name.length with
    | ';' :: rest => (entity? name).map (·, rest)
    | _ => none
  ended.or <|
    let n := oldEntityLength name.length name
    let rest := t.drop n
    if inValue && rest.head?.any (fun c => isEntityChar c || c = '=') then none
    else (entity? (name.take n)).map (·, rest)

/-- What a reference stands for, in text or in the value of an attribute. -/
def reference (inValue : Bool) : Reader Text := do
  Reader.literal "&"
  (do
    Reader.literal "#x" <|> Reader.literal "#X"
    numbered 16 fun c => (Xml.hexDigit? c).isSome)
  <|> (do
    Reader.literal "#"
    numbered 10 isAsciiDigit)
  <|> named inValue

/-- A text with every reference resolved. -/
def resolve (t : Text) : Text :=
  (Reader.collect (reference false <|> do return [← Reader.char Text.anyChar]) t).1.flatten

end OfficeFormula.Markup.Html
