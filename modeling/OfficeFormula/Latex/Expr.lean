import OfficeFormula.Text.Basic

/-!
# Math expressions

An expression is a nucleus with an optional subscript and superscript. The nucleus is a sequence, a
fraction, a root, a big operator, an atom of text, an environment of rows and cells, or nothing.
-/

namespace OfficeFormula.Latex

/-- What an atom of text is in the formula. -/
inductive AtomKind where
  | symbol
  | text
  | number
  | operator
  | delimiter
deriving DecidableEq, Repr

mutual

/-- A nucleus and its scripts. -/
inductive Expr where
  | mk (nucleus : Nucleus) (sub sup : Option Expr)

inductive Nucleus where
  /-- A whole formula. -/
  | root (items : List Expr)
  /-- A sequence in braces. -/
  | group (items : List Expr)
  | frac (num den : Expr)
  /-- A square root. -/
  | sqrt (base : Expr)
  /-- A root with a degree. -/
  | radical (base : Expr) (degree : Option Expr)
  /-- A big operator; the scripts of the expression are its limits. -/
  | nary (op : Text)
  | atom (kind : AtomKind) (value : Text)
  /-- A named environment: rows of cells. -/
  | environment (name : String) (rows : List (List Expr))
  | empty
  /-- A place where no kind of expression has been chosen. -/
  | hole

end

namespace Expr

/-- The nucleus without its scripts. -/
def nucleus : Expr → Nucleus
  | mk n _ _ => n

/-- The subscript, if there is one. -/
def sub : Expr → Option Expr
  | mk _ s _ => s

/-- The superscript, if there is one. -/
def sup : Expr → Option Expr
  | mk _ _ s => s

/-- The expression with its subscript replaced. -/
def withSub : Expr → Expr → Expr
  | mk n _ s, e => mk n (some e) s

/-- The expression with its superscript replaced. -/
def withSup : Expr → Expr → Expr
  | mk n s _, e => mk n s (some e)

end Expr

/-- A nucleus that has no scripts. -/
def Nucleus.plain (n : Nucleus) : Expr := .mk n none none

/-- The expression that prints nothing. -/
def Expr.empty : Expr := Nucleus.empty.plain

/-- An atom that has no scripts. -/
def Expr.atom (kind : AtomKind) (value : Text) : Expr := (Nucleus.atom kind value).plain

/-- A sequence in braces that has no scripts. -/
def Expr.group (items : List Expr) : Expr := (Nucleus.group items).plain

end OfficeFormula.Latex
