import OfficeFormula.Text.Digit
import OfficeFormula.Text.Word

/-!
# Addresses

A namespace is named by an address: a scheme and what it leads to, or a reference relative to
another address. `isAddress` says whether a text has this form. An address is written in ASCII; a
character that may not stand in it is written as a percent sign and two hexadecimal digits.
-/

namespace OfficeFormula.Markup.Xml

namespace Address

/-- A digit of base sixteen. -/
def isHexDigit (c : Char) : Bool :=
  isAsciiDigit c || ('a' ≤ c && c ≤ 'f') || ('A' ≤ c && c ≤ 'F')

/-- A character without a meaning of its own. -/
def isUnreserved (c : Char) : Bool := isAsciiLetter c || isAsciiDigit c || "-._~".toList.contains c

/-- A character that may part what stands in one place of an address. -/
def isDelimiter (c : Char) : Bool := "!$&'()*+,;=".toList.contains c

/-- A character of the name of a host. -/
def isHostChar (c : Char) : Bool := isUnreserved c || isDelimiter c

/-- A character of one part of a path. -/
def isPartChar (c : Char) : Bool := isHostChar c || c = ':' || c = '@'

/-- A character of a path. -/
def isPathChar (c : Char) : Bool := isPartChar c || c = '/'

/-- A character of a query. -/
def isQueryChar (c : Char) : Bool := isPathChar c || c = '?'

/-- A character of a fragment. -/
def isFragmentChar (c : Char) : Bool := isQueryChar c || c = '[' || c = ']'

/-- A character of a scheme, its first letter apart. -/
def isSchemeChar (c : Char) : Bool := isAsciiLetter c || isAsciiDigit c || "+-.".toList.contains c

/-- The text after the characters of which `p` holds and after percent escapes. -/
def skip (p : Char → Bool) : Text → Text
  | '%' :: a :: b :: cs =>
    if isHexDigit a && isHexDigit b then skip p cs else '%' :: a :: b :: cs
  | c :: cs => if p c then skip p cs else c :: cs
  | [] => []

/-- What follows the name of a host. One in brackets may hold anything. -/
def afterHost? (t : Text) : Option Text :=
  match t with
  | '[' :: cs => Text.after? [']'] (cs.dropWhile (· ≠ ']'))
  | t => some (skip isHostChar t)

/-- The greatest number that may follow a host. -/
def maxHostNumber : Nat := 0x7FFFFFFF

/-- What follows the number after a host, if there is one. -/
def afterHostNumber? (t : Text) : Option Text :=
  match t with
  | ':' :: cs =>
    let digits := cs.takeWhile isAsciiDigit
    let number := digits.foldl (fun n d => 10 * n + (d.toNat - '0'.toNat)) 0
    if digits = [] || decide (number > maxHostNumber) then none else some (cs.drop digits.length)
  | t => some t

/-- The text without the name of a user before the host. -/
def dropUser (t : Text) : Text :=
  match skip (fun c => isHostChar c || c = ':') t with
  | '@' :: host => host
  | _ => t

/-- What follows a host, with the user before it and the number after it. -/
def afterAuthority? (t : Text) : Option Text := (afterHost? (dropUser t)).bind afterHostNumber?

/-- What follows a path from the root, which may be empty. -/
def afterRootedPath (t : Text) : Text := if t.head? = some '/' then skip isPathChar t else t

/-- Nothing is left but a query and a fragment. -/
def endsAddress (t : Text) : Bool :=
  let t := match t with
    | '?' :: cs => skip isQueryChar cs
    | t => t
  let t := match t with
    | '#' :: cs => skip isFragmentChar cs
    | t => t
  t = []

/-- The text after two slashes is a host, a path from the root, a query and a fragment. -/
def isAtHost (t : Text) : Bool :=
  match afterAuthority? t with
  | some rest => endsAddress (afterRootedPath rest)
  | none => false

/-- The text after a scheme and its colon. -/
def afterScheme? (t : Text) : Option Text :=
  match t with
  | [] => none
  | c :: cs => if isAsciiLetter c then Text.after? [':'] (cs.dropWhile isSchemeChar) else none

/-- An address with a scheme. -/
def isAbsolute (t : Text) : Bool :=
  match afterScheme? t with
  | some ('/' :: '/' :: rest) => isAtHost rest
  | some rest => endsAddress (skip isPathChar rest)
  | none => false

/-- What follows a path whose first part has no colon. -/
def afterRelativePath (t : Text) : Text :=
  afterRootedPath (skip (fun c => isPartChar c && c ≠ ':') t)

/-- A reference relative to another address. -/
def isRelative (t : Text) : Bool :=
  match t with
  | '/' :: '/' :: rest => isAtHost rest
  | t => endsAddress (afterRelativePath t)

end Address

/-- A text in the form of an address. -/
def isAddress (t : Text) : Bool := Address.isAbsolute t || Address.isRelative t

end OfficeFormula.Markup.Xml
