import OfficeFormula.Span.Scan
import OfficeFormula.Text.Blank
import OfficeFormula.Text.Digit
import OfficeFormula.Text.Word

/-!
# What looks like a formula

Plain parentheses are taken for a formula if what they hold looks like one: a command, a script or a
relation sign, a call of a common function, or an arithmetic sign before an operand. Chinese
characters rule a formula out.
-/

namespace OfficeFormula.Span

/-- A Chinese character of the basic block. -/
def isChinese (c : Char) : Bool := decide (0x4E00 ≤ c.toNat) && decide (c.toNat ≤ 0x9FFF)

/-- A backslash and a letter. -/
def startsCommand : Text → Bool
  | '\\' :: c :: _ => isAsciiLetter c
  | _ => false

/-- The marks of a script. -/
def isScriptMark (c : Char) : Bool := c = '_' || c = '^'

/-- The text has a command or the mark of a script. -/
def hasLatex (t : Text) : Bool := Text.hasSuffix startsCommand t || t.any isScriptMark

/-- The relation signs that make a formula. -/
def isRelationSign (c : Char) : Bool := ['=', '≈', '≤', '≥', '≠'].contains c

/-- Functions whose call makes a formula. -/
def functionNames : List String := ["N", "ln", "exp", "log", "sin", "cos", "tan", "f", "g"]

/-- A call of a common function whose name begins a word. -/
def startsFunctionCall (previous : Option Char) (t : Text) : Bool :=
  !previous.any isWordChar && functionNames.any fun name =>
    match Text.after? name.toList t with
    | some rest => (rest.dropWhile isBlank).head? = some '('
    | none => false

/-- The beginning of an operand. -/
def isOperandStart (c : Char) : Bool := isDecimalDigit c || c = '.' || isAsciiLetter c

/-- An arithmetic sign before an operand. -/
def startsArithmetic : Text → Bool
  | [] => false
  | c :: cs => ['+', '-', '*', '/'].contains c && (cs.dropWhile isBlank).head?.any isOperandStart

/-- The content of parentheses looks like a formula. -/
def looksLikeMath (t : Text) : Bool :=
  !t.any isChinese
    && (hasLatex t || t.any isRelationSign || anywhere startsFunctionCall none t
      || Text.hasSuffix startsArithmetic t)

end OfficeFormula.Span
