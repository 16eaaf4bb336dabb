import OfficeFormula.Markdown.Block
import OfficeFormula.Markdown.Phrase

/-!
# Tables in Markdown

A table is a line of cells, a line of dashes with as many cells, and any number of further lines.
Cells are divided by bars. A bar inside code, or after a backslash, divides nothing.
-/

namespace OfficeFormula.Markdown

/-- The text without the spaces around it. -/
def trimSpaces (t : Text) : Text :=
  ((t.dropWhile (· = ' ')).reverse.dropWhile (· = ' ')).reverse

/-- The cells of a line without bars at its ends; `current` is the cell that has been begun, the
last character first. -/
def splitCells (current : Text) : Text → List Text
  | [] => [current.reverse]
  | c :: cs =>
    match codeAt? (c :: cs) with
    | some (_, n) =>
      splitCells ((c :: cs.take (n - 1)).reverse ++ current) (cs.drop (n - 1))
    | none =>
      if c = '\\' && (cs.head? = some '\\' || cs.head? = some '|' || cs.head? = some '`') then
        splitCells ((cs.take 1).reverse ++ c :: current) (cs.drop 1)
      else if c = '|' then current.reverse :: splitCells [] cs
      else splitCells (c :: current) cs
termination_by t => t.length
decreasing_by all_goals simp; try omega

/-- A bar at the end of a line, with no odd number of backslashes before it. -/
def endsWithBar (t : Text) : Bool :=
  match t.reverse with
  | '|' :: before => (before.takeWhile (· = '\\')).length % 2 = 0
  | _ => false

/-- The line without a bar at its end and the backslashes before it. -/
def dropEndBar (t : Text) : Text :=
  if endsWithBar t then (t.dropLast.reverse.dropWhile (· = '\\')).reverse else t

/-- The cells of a line; bars at its ends are a border if the table has one. -/
def cells (bordered : Bool) (line : Text) : List Text :=
  if bordered then splitCells [] (dropEndBar (if line.head? = some '|' then line.drop 1 else line))
  else splitCells [] line

/-- What a cell of the line of dashes says about its column. -/
def alignmentOf (cell : Text) : Alignment :=
  let cell := trimSpaces cell
  if cell.head? = some ':' && cell.getLast? = some ':' then .center
  else if cell.head? = some ':' then .left
  else if cell.getLast? = some ':' then .right
  else .none

/-- The characters of the line of dashes. -/
def isDashChar (c : Char) : Bool := c == '|' || c == ':' || c == '-' || c == ' '

/-- One cell for each column: further cells are dropped, missing ones are empty. -/
def fillRow (d : Dialect) (columns : Nat) (row : List Text) : List (List Inline) :=
  (List.range columns).map fun i => phrase d (trimSpaces (row.getD i []))

/-- The table that lines make up. -/
def readTable? (d : Dialect) (lines : List Text) : Option Table :=
  match lines.map trimSpaces with
  | header :: dashes :: rows =>
    let bordered := header.head? = some '|' || endsWithBar header
    let head := cells bordered header
    let marks := cells bordered dashes
    let single := bordered && (dashes :: rows).all fun l => l.head? = some '|' || endsWithBar l
    if (1 < head.length || single) && marks.length = head.length && marks.all (·.all isDashChar)
    then
      let columns := head.length
      let body := if rows = [] then [[]] else rows.map (cells bordered)
      some ⟨marks.map alignmentOf, fillRow d columns head, body.map (fillRow d columns)⟩
    else none
  | _ => none

end OfficeFormula.Markdown
