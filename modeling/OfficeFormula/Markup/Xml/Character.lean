import OfficeFormula.Text.Basic

/-!
# Characters of XML

Which characters a document may hold, which of them are white space, and which make up names.
-/

namespace OfficeFormula.Markup.Xml

/-- White space: the space, the tab and the line ends. -/
def isSpace (c : Char) : Bool := c == ' ' || c == '\t' || c == '\n' || c == '\r'

/-- The code points that a document may hold, as closed ranges. -/
def allowedRanges : List (Nat × Nat) := [
  (0x9, 0xA), (0xD, 0xD), (0x20, 0xD7FF), (0xE000, 0xFFFD), (0x10000, 0x10FFFF)]

/-- A character that a document may hold. -/
def isAllowed (c : Char) : Bool := inRanges allowedRanges c.toNat

/-- The code points that a name may begin with, the colon apart, as closed ranges. -/
def nameStartRanges : List (Nat × Nat) := [
  (0x41, 0x5A), (0x5F, 0x5F), (0x61, 0x7A), (0xC0, 0xD6), (0xD8, 0xF6), (0xF8, 0x2FF),
  (0x370, 0x37D), (0x37F, 0x1FFF), (0x200C, 0x200D), (0x2070, 0x218F), (0x2C00, 0x2FEF),
  (0x3001, 0xD7FF), (0xF900, 0xFDCF), (0xFDF0, 0xFFFD), (0x10000, 0xEFFFF)]

/-- The further code points that may follow in a name, as closed ranges. -/
def nameMoreRanges : List (Nat × Nat) := [
  (0x2D, 0x2E), (0x30, 0x39), (0xB7, 0xB7), (0x300, 0x36F), (0x203F, 0x2040)]

def isNameStart (c : Char) : Bool := inRanges nameStartRanges c.toNat

def isNameChar (c : Char) : Bool := isNameStart c || inRanges nameMoreRanges c.toNat

end OfficeFormula.Markup.Xml
