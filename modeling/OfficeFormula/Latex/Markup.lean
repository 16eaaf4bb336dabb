import OfficeFormula.Latex.Parser
import OfficeFormula.Omml.Render

/-!
# Expressions as Office Math Markup

`Expr.markup` gives the nodes that print an expression. Scripts wrap the whole nucleus, except that
the scripts of a big operator are its limits. Environments that are matrices in some bracket keep
their cells; any other environment with several rows is a stack of equations.

Two shapes have no markup, and both are `MarkupError`s: a hole, and a matrix without rows. No
formula is parsed into either.
-/

namespace OfficeFormula.Latex

/-- Why an expression has no markup. -/
inductive MarkupError where
  /-- A place where no kind of expression has been chosen. -/
  | hole
  /-- A matrix without rows has no width. -/
  | noRows
deriving DecidableEq, Repr

def MarkupError.message : MarkupError → String
  | .hole => "No OMML lowering for MathNode"
  | .noRows => "max() arg is an empty sequence"

/-- The brackets around each kind of matrix, by the name of its environment. -/
def matrixBrackets : List (String × Text × Text) := [
  ("matrix", [], []),
  ("smallmatrix", [], []),
  ("array", [], []),
  ("pmatrix", ['('], [')']),
  ("bmatrix", ['['], [']']),
  ("Bmatrix", ['{'], ['}']),
  ("vmatrix", ['|'], ['|']),
  ("Vmatrix", ['‖'], ['‖']),
  ("cases", ['{'], []),
  ("rcases", [], ['}'])]

/-- The name of an environment without the stars at its end. -/
def unstarred (name : String) : String :=
  String.ofList (name.toList.reverse.dropWhile (· = '*')).reverse

/-- The brackets of an environment that is a matrix. -/
def brackets? (name : String) : Option (Text × Text) := matrixBrackets.lookup (unstarred name)

/-- The limits of a big operator stand above and below it, or beside it. -/
def limitPlace (op : Text) : Text :=
  if op = ['∑'] ∨ op = ['∏'] then "undOver".toList else "subSup".toList

/-- A row filled up with empty cells. -/
def padRow (width : Nat) (row : List (List Omml.Node)) : List (List Omml.Node) :=
  row ++ List.replicate (width - row.length) []

/-- A bracket as a run of its own, unless it is empty. -/
def bracketRun (bracket : Text) : List Omml.Node :=
  if bracket = [] then [] else [Omml.run bracket false]

/-- The markup of an environment whose cells have been printed. -/
def environmentMarkup (name : String) (rows : List (List (List Omml.Node))) :
    Except MarkupError (List Omml.Node) :=
  match brackets? name with
  | some (opening, closing) =>
    match (rows.map List.length).max? with
    | none => .error .noRows
    | some width =>
      .ok (bracketRun opening ++ [Omml.matrix (rows.map (padRow width))] ++ bracketRun closing)
  | none =>
    match rows.map List.flatten with
    | [line] => .ok line
    | lines => .ok [Omml.equationArray lines]

/-- The name of a function is several letters long and set upright. -/
def isUpright (kind : AtomKind) (value : Text) : Bool :=
  kind = .text && decide (value.trim.length > 1)

/-- The printed nucleus with its printed scripts. -/
def withScripts (base : List Omml.Node) (sub sup : Option (List Omml.Node)) : List Omml.Node :=
  if sub.isNone && sup.isNone then base else [Omml.scripts base sub sup]

mutual

/-- The nodes that print an expression. -/
def Expr.markup : Expr → Except MarkupError (List Omml.Node)
  | .mk (.nary op) sub sup => do
    let sub ← markupOpt sub
    let sup ← markupOpt sup
    return [Omml.nary op sub sup [] (some (limitPlace op))]
  | .mk n sub sup => do
    let base ← n.markup
    let sub ← markupOpt sub
    let sup ← markupOpt sup
    return withScripts base sub sup

/-- The nodes that print a nucleus without its scripts. -/
def Nucleus.markup : Nucleus → Except MarkupError (List Omml.Node)
  | .root items => markupAll items
  | .group items => markupAll items
  | .frac num den => do
    let num ← num.markup
    let den ← den.markup
    return [Omml.fraction num den]
  | .sqrt base => do
    let base ← base.markup
    return [Omml.radical base [] true]
  | .radical base degree => do
    let degree ← markupOpt degree
    let base ← base.markup
    return [Omml.radical base (degree.getD []) false]
  | .nary op => return [Omml.nary op none none [] (some (limitPlace op))]
  | .atom kind value => return [Omml.run value (isUpright kind value)]
  | .environment name rows => do
    let rows ← markupRows rows
    environmentMarkup name rows
  | .empty => return []
  | .hole => .error .hole

def markupOpt : Option Expr → Except MarkupError (Option (List Omml.Node))
  | none => return none
  | some e => do
    let ns ← e.markup
    return some ns

def markupAll : List Expr → Except MarkupError (List Omml.Node)
  | [] => return []
  | e :: es => do
    let ns ← e.markup
    let rest ← markupAll es
    return ns ++ rest

def markupCells : List Expr → Except MarkupError (List (List Omml.Node))
  | [] => return []
  | e :: es => do
    let ns ← e.markup
    let rest ← markupCells es
    return ns :: rest

def markupRows : List (List Expr) → Except MarkupError (List (List (List Omml.Node)))
  | [] => return []
  | row :: rows => do
    let cells ← markupCells row
    let rest ← markupRows rows
    return cells :: rest

end

/-- The written markup of a formula. -/
def formulaMarkup (formula : Text) : Except MarkupError Text := do
  let nodes ← (parse formula).markup
  return (Omml.formula nodes).render

end OfficeFormula.Latex
