import OfficeFormula.Markup.Escape
import OfficeFormula.Markup.Html.Element
import OfficeFormula.Markup.Html.Event
import OfficeFormula.Markup.Tree
import OfficeFormula.Markup.Xml.Character
import OfficeFormula.Text.Quoted

/-!
# Written form of HTML

Elements without content have no end tag. Text and attribute values escape the ampersand and the
angle brackets; raw elements hold their text as it is, and so does an attribute value a comment or a
script in braces. A link is written with its blanks and its characters outside ASCII as percent
escapes.
-/

namespace OfficeFormula.Markup.Html

/-- A value in quotes: double ones, unless it has double quotes and no single ones. -/
def quote (t : Text) : Text :=
  if !List.contains t '"' then '"' :: t ++ ['"']
  else if !List.contains t '\'' then '\'' :: t ++ ['\'']
  else '"' :: t.flatMap (fun c => if c = '"' then "&quot;".toList else [c]) ++ ['"']

/-- A character of a link: what is printed in ASCII as it is, all else byte by byte. -/
def escapeLinkChar (c : Char) : Text :=
  if 0x20 < c.toNat && c.toNat < 0x7F then [c]
  else (String.utf8EncodeChar c).flatMap fun b =>
    '%' :: (Text.hexDigits 2 b.toNat).map Char.toUpper

/-- An attribute whose value is a link. -/
def isLink (tag key : String) : Bool :=
  ["href", "action", "src"].contains key || (key = "name" && tag = "a")

/-- What begins and what ends a stretch of a value that is written as it is: a comment, for a server
to fill in, and a script after an ampersand. -/
def verbatimMarks : List (String × String) := [("<!--", "-->"), ("&\x7b", "\x7d")]

/-- How long the stretch at the head of a value is that is written as it is, if there is one. -/
def verbatimLength? (t : Text) : Option Nat :=
  verbatimMarks.findSome? fun marks =>
    if Text.startsWith marks.1.toList t then
      (t.before? Text.anyChar (Text.startsWith marks.2.toList)).map
        (·.length + marks.2.toList.length)
    else none

/-- A value with its reserved characters escaped, except in the next `kept` characters and in the
stretches that are written as they are. -/
def escapeBeyond (kept : Nat) : Text → Text
  | [] => []
  | c :: cs =>
    match kept with
    | n + 1 => c :: escapeBeyond n cs
    | 0 =>
      match verbatimLength? (c :: cs) with
      | some (n + 1) => c :: escapeBeyond n cs
      | _ => escapeChar c ++ escapeBeyond 0 cs

/-- A value with its reserved characters escaped. -/
def escapeValue (value : Text) : Text := escapeBeyond 0 value

/-- A value as it is written. -/
def renderValue (tag key : String) (value : Text) : Text :=
  let escaped := escapeValue value
  quote (if isLink tag key then (escaped.dropWhile Xml.isSpace).flatMap escapeLinkChar else escaped)

/-- An attribute, after the blank that separates it. -/
def renderAttr (tag : String) (a : Attr) : Text :=
  ' ' :: a.1.toList ++
    (if booleanAttributes.contains a.1 then []
    else match a.2 with
      | none => []
      | some value => '=' :: renderValue tag a.1 value)

mutual

/-- The written form of a node inside an element; text is raw if `raw`. -/
def render (raw : Bool) : Node → Text
  | .element name attrs children =>
    let start := '<' :: name.toList ++ attrs.flatMap (renderAttr name) ++ ['>']
    if voidElements.contains name then start
    else start ++ renderAll (rawElements.contains name) children
      ++ "</".toList ++ name.toList ++ ['>']
  | .text t => if raw then t else escape t
  | .comment t => "<!--".toList ++ t ++ "-->".toList

def renderAll (raw : Bool) : List Node → Text
  | [] => []
  | n :: ns => render raw n ++ renderAll raw ns

end

@[simp] theorem render_text (raw : Bool) (t : Text) : render raw (.text t) = if raw then t else escape t := by
  rw [render]

@[simp] theorem render_comment (raw : Bool) (t : Text) :
    render raw (.comment t) = "<!--".toList ++ t ++ "-->".toList := by
  rw [render]

/-- The written form of nodes. Text that they begin with is written as it is. -/
def renderContent : List Node → Text
  | .text t :: ns => t ++ renderContent ns
  | ns => renderAll false ns

end OfficeFormula.Markup.Html
