import OfficeFormula.Report.Message
import OfficeFormula.Report.Wrap

/-!
# Messages on a terminal

A message is printed on a line of its own, its details in a box below it that is as wide as the
terminal. The answer is `none` where the terminal is too narrow for the text of a detail.
-/

namespace OfficeFormula.Report

def resetColour : Text := "\x1b[0m".toList

def lineNumberColour : Text := "\x1b[30;1m".toList

def highlightColour : Text := "\x1b[43;30m".toList

/-- The room for a line number. -/
def lineNumberWidth : Nat := 4

/-- What a box takes of the width of the terminal. -/
def frameWidth : Int := 6

/-- `n` copies of a character, none if `n` is negative. -/
def fill (c : Char) (n : Int) : Text := List.replicate n.toNat c

/-- The text with spaces up to a width. -/
def padEnd (width : Int) (t : Text) : Text := t ++ fill ' ' (width - t.length)

/-- A line number at the right of its room. -/
def numberColumn (n : Nat) : Text :=
  let digits := (toString n).toList
  fill ' ' (lineNumberWidth - digits.length : Int) ++ digits

/-- A numbered line is left out if it is too far from every highlighted line. -/
def isHidden (d : Detail) (lineNumber : Nat) : Bool :=
  match d.contextLines with
  | none => false
  | some context =>
    !d.highlighted.isEmpty
      && d.highlighted.all fun h => decide (((lineNumber : Int) - h).natAbs > context)

/-- A line with its number in front of it. -/
def numberedLine (d : Detail) (width : Int) (p : Piece) : Text :=
  let number := if p.startOfLine then numberColumn p.lineNumber else fill ' ' lineNumberWidth
  let colour := if d.highlighted.contains (p.lineNumber : Int) then highlightColour else []
  "  │".toList ++ lineNumberColour ++ number ++ resetColour ++ "  ".toList ++ colour
    ++ padEnd width p.text ++ resetColour ++ " │\n".toList

/-- The lines of a detail in a box of the given inner width. -/
def detailLines (inner : Int) (d : Detail) : Option Text := do
  if d.lineNumbers then
    let width := inner - lineNumberWidth - 1
    let pieces ← wrap width d.content.trimEnd
    return (pieces.filter fun p => !isHidden d p.lineNumber).flatMap (numberedLine d width)
  else
    let pieces ← wrap inner d.content.trimEnd
    return pieces.flatMap fun p => "  │ ".toList ++ padEnd inner p.text ++ " │\n".toList

/-- A horizontal line of a box, between its corners. -/
def rule (left right : Text) (inner : Int) : Text :=
  "  ".toList ++ left ++ fill '─' inner ++ right ++ ['\n']

/-- The boxes of details below the first line of a box, each closed towards the next. -/
def detailBoxes (inner : Int) : List Detail → Option Text
  | [] => some []
  | [d] => do
    let lines ← detailLines inner d
    return lines ++ rule "└─".toList "─┘".toList inner
  | d :: ds => do
    let lines ← detailLines inner d
    let rest ← detailBoxes inner ds
    return lines ++ rule "├─".toList "─┤".toList inner ++ rest

/-- A message as it is printed on a terminal with that many columns. -/
def Message.print? (columns : Int) (m : Message) : Option Text := do
  let inner := columns - frameWidth
  let head := m.severity.locationColour ++ m.severity.tag ++ m.location ++ [':'] ++ resetColour
    ++ [' '] ++ m.severity.textColour ++ m.text ++ resetColour ++ ['\n']
  match m.details with
  | [] => return head
  | ds =>
    let boxes ← detailBoxes inner ds
    return head ++ rule "┌─".toList "─┐".toList inner ++ boxes

end OfficeFormula.Report
