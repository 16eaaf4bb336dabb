import OfficeFormula.Text.Blank
import OfficeFormula.Text.Digit
import OfficeFormula.Text.Word

/-!
# MathML inside other markup

Finds the first `math` element in a text, from the beginning of its start tag to the end of the
first end tag after it, without reading the rest as markup.
-/

namespace OfficeFormula.MathML

/-- A character of a namespace prefix. -/
def isPrefixChar (c : Char) : Bool := isAsciiLetter c || isAsciiDigit c

/-- What follows a prefix and its colon at the head of the text. -/
def afterPrefix? (t : Text) : Option Text :=
  if t.takeWhile isPrefixChar = [] then none
  else Text.after? [':'] (t.dropWhile isPrefixChar)

/-- What follows the name `math`, with or without a prefix, at the head of the text, if `ok` holds
of it. -/
def afterMathName? (ok : Text → Bool) (t : Text) : Option Text :=
  let bare (u : Text) : Option Text := (Text.after? "math".toList u).filter ok
  ((afterPrefix? t).bind bare).or (bare t)

/-- What follows the beginning of a start tag of a `math` element. -/
def afterMathStart? (t : Text) : Option Text :=
  (Text.after? ['<'] t).bind (afterMathName? endsWord)

/-- The text goes on with blanks and the end of a tag. -/
def closesTag (t : Text) : Bool := (t.dropWhile isBlank).head? = some '>'

/-- What follows an end tag of a `math` element at the head of the text. -/
def afterMathEnd? (t : Text) : Option Text :=
  ((Text.after? "</".toList t).bind (afterMathName? closesTag)).map
    fun rest => (rest.dropWhile isBlank).drop 1

/-- The part of the text up to the end of the first end tag of a `math` element. -/
def throughMathEnd? (t : Text) : Option Text :=
  match afterMathEnd? t with
  | some rest => some (t.take (t.length - rest.length))
  | none =>
    match t with
    | [] => none
    | c :: cs => (throughMathEnd? cs).map (c :: ·)

/-- The first `math` element of the text, as it is written. -/
def extract? (t : Text) : Option Text :=
  match t with
  | [] => none
  | c :: cs =>
    match (afterMathStart? (c :: cs)).bind fun rest =>
        (throughMathEnd? rest).map fun inner =>
          (c :: cs).take ((c :: cs).length - rest.length) ++ inner with
    | some found => some found
    | none => extract? cs

end OfficeFormula.MathML
