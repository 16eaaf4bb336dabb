import OfficeFormula.Markdown.Inline

/-!
# Blocks of a Markdown document
-/

namespace OfficeFormula.Markdown

inductive ListKind where
  | bullets
  /-- Numbered items; the first number where the list shows it. -/
  | numbers (start : Option Text)
deriving DecidableEq, Repr

/-- The lists with this kind of items go together, whatever their numbers. -/
def ListKind.isNumbered : ListKind → Bool
  | bullets => false
  | numbers _ => true

/-- An item of a list. -/
structure Item where
  /-- An empty line stands next to the item, which is then a paragraph. -/
  isLoose : Bool
  content : List Inline

inductive Alignment where
  | none
  | left
  | center
  | right
deriving DecidableEq, Repr

/-- A table; every row has as many cells as the table has columns. -/
structure Table where
  columns : List Alignment
  header : List (List Inline)
  rows : List (List (List Inline))

inductive Block where
  | paragraph (content : List Inline)
  | heading (level : Nat) (content : List Inline)
  | rule
  /-- Lines of code. -/
  | code (lines : List Text)
  | list (kind : ListKind) (items : List Item)
  | table (t : Table)
  | quote (content : List Block)

end OfficeFormula.Markdown
