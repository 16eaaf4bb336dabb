import OfficeFormula.Text.Blank
import OfficeFormula.Text.Digit
import OfficeFormula.Text.Word

/-!
# Tokens of LaTeX math

`tokenize` cuts a formula into tokens, always taking the longest token that fits: a backslash takes
the letters after it, or else one character, and a number takes its digits and at most one inner
point. Blanks separate tokens and are dropped; every other character is part of exactly one token,
so no text is refused.
-/

namespace OfficeFormula.Latex

inductive Token where
  /-- A backslash and the name after it: letters, or one other character, or nothing at the very
  end. -/
  | command (name : String)
  /-- A letter, or a character with no other role. -/
  | literal (c : Char)
  /-- Digits, with at most one point between two of them. -/
  | number (digits : Text)
  | operator (c : Char)
  | openGroup
  | closeGroup
  | subscript
  | superscript
deriving DecidableEq, Repr

namespace Token

/-- The characters that the token was cut from. -/
def text : Token → Text
  | command name => '\\' :: name.toList
  | literal c => [c]
  | number digits => digits
  | operator c => [c]
  | openGroup => ['{']
  | closeGroup => ['}']
  | subscript => ['_']
  | superscript => ['^']

end Token

/-- The characters that stand for themselves as operators. -/
def operatorChars : List Char :=
  ['+', '-', '*', '/', '=', '<', '>', '(', ')', '[', ']', ',', '.', '|', '!']

/-- The name of the command whose backslash is followed by `cs`. -/
def commandName (cs : Text) : Text :=
  match cs.takeWhile isAsciiLetter with
  | [] => cs.take 1
  | letters => letters

/-- The part of `cs` that continues a number begun just before it: digits, then a point with more
digits if a digit follows the point. -/
def numberTail (cs : Text) : Text :=
  let whole := cs.takeWhile isAsciiDigit
  match cs.dropWhile isAsciiDigit with
  | '.' :: rest =>
    match rest.takeWhile isAsciiDigit with
    | [] => whole
    | fraction => whole ++ '.' :: fraction
  | _ => whole

/-- The token of a character that is a token by itself; blanks have none. -/
def charToken? (c : Char) : Option Token :=
  if c = '{' then some .openGroup
  else if c = '}' then some .closeGroup
  else if c = '_' then some .subscript
  else if c = '^' then some .superscript
  else if operatorChars.contains c then some (.operator c)
  else if isBlank c then none
  else some (.literal c)

/-- The tokens of a formula. -/
def tokenize : Text → List Token
  | [] => []
  | c :: cs =>
    if c = '\\' then
      let name := commandName cs
      .command (String.ofList name) :: tokenize (cs.drop name.length)
    else if isAsciiDigit c then
      let more := numberTail cs
      .number (c :: more) :: tokenize (cs.drop more.length)
    else
      match charToken? c with
      | some token => token :: tokenize cs
      | none => tokenize cs
termination_by t => t.length
decreasing_by all_goals simp; try omega

end OfficeFormula.Latex
