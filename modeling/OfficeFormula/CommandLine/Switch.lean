import OfficeFormula.Latex.Compile
import OfficeFormula.Text.Digit
import OfficeFormula.Text.Quoted

/-!
# Arguments of the command line

An argument is a switch, perhaps with a value attached, or a value. A long switch may be shortened
as long as it stays the only one that begins so. After `--` every argument is a value.
-/

namespace OfficeFormula.CommandLine

inductive Switch where
  | help
  | version
  | output
  | preview
  | fragment
  | html
  | latexEngine
  | noSoftParentheses
  | latex
  | display
deriving DecidableEq, Repr

namespace Switch

/-- All switches, in the order in which they are listed. -/
def all : List Switch := [
  help, version, output, preview, fragment, html, latexEngine, noSoftParentheses, latex, display]

/-- How a switch may be written. -/
def spellings : Switch → List String
  | help => ["-h", "--help"]
  | version => ["-v", "--version"]
  | output => ["-o", "--output"]
  | preview => ["--preview"]
  | fragment => ["--fragment"]
  | html => ["--html"]
  | latexEngine => ["--latex-engine"]
  | noSoftParentheses => ["--no-soft-parens"]
  | latex => ["-x", "--latex"]
  | display => ["--display"]

/-- The switch needs a value. -/
def takesValue : Switch → Bool
  | output | latexEngine | latex => true
  | _ => false

/-- What messages call a switch. -/
def title (s : Switch) : Text := Text.join ['/'] (s.spellings.map String.toList)

/-- Every spelling with its switch. -/
def table : List (Text × Switch) :=
  all.flatMap fun s => s.spellings.map fun spelling => (spelling.toList, s)

/-- The switch with exactly this spelling. -/
def ofSpelling? (t : Text) : Option Switch := table.lookup t

end Switch

inductive UsageError where
  | ambiguous (argument : Text) (candidates : List Text)
  | valueMissing (s : Switch)
  | valueIgnored (s : Switch) (value : Text)
  | invalidEngine (name : Text)
  | unrecognised (arguments : List Text)

namespace UsageError

/-- What is wrong with a switch. -/
def about (s : Switch) (what : Text) : Text := "argument ".toList ++ s.title ++ ": ".toList ++ what

/-- What is said about a mistake. -/
def text : UsageError → Text
  | ambiguous argument candidates =>
    "ambiguous option: ".toList ++ argument ++ " could match ".toList
      ++ Text.join ", ".toList candidates
  | valueMissing s => about s "expected one argument".toList
  | valueIgnored s value => about s ("ignored explicit argument ".toList ++ value.quoted)
  | invalidEngine name => about .latexEngine ("invalid choice: ".toList ++ name.quoted
      ++ " (choose from 'native', 'mathml')".toList)
  | unrecognised arguments =>
    "unrecognized arguments: ".toList ++ Text.join [' '] arguments

end UsageError

inductive Argument where
  | value (t : Text)
  /-- A switch; `isShort` if it is written with one dash. -/
  | switch (s : Switch) (isShort : Bool) (attached : Option Text)
  /-- What looks like a switch and is none. -/
  | unknown (t : Text)
  /-- The end of all switches. -/
  | terminator

/-- What stands before the first equals sign, and what stands after it. -/
def splitEquals (t : Text) : Text × Option Text :=
  let name := t.takeWhile (· ≠ '=')
  match t.drop name.length with
  | [] => (name, none)
  | _ :: value => (name, some value)

/-- Nothing, or one newline. -/
def isLineEnd (t : Text) : Bool := t = [] || t = ['\n']

/-- A negative number: a whole one, or one with decimals. A newline may follow it. -/
def isNegativeNumber (t : Text) : Bool :=
  match t with
  | '-' :: number =>
    let whole := number.takeWhile isDecimalDigit
    match number.drop whole.length with
    | '.' :: rest =>
      let decimals := rest.takeWhile isDecimalDigit
      decimals ≠ [] && isLineEnd (rest.drop decimals.length)
    | rest => whole ≠ [] && isLineEnd rest
  | _ => false

/-- The spelling is one with a single dash. -/
def isShortSpelling (t : Text) : Bool := (t.drop 1).head? ≠ some '-'

/-- The switches that an argument may stand for: with two dashes those that begin like it, with one
dash the one whose letter it begins with. Gives the spelling and the value attached. -/
def candidates (t : Text) : List (Text × Switch × Option Text) :=
  if isShortSpelling t then
    (Switch.table.filter fun e => e.1 = t.take 2).map fun e => (e.1, e.2, some (t.drop 2))
  else
    let (name, attached) := splitEquals t
    (Switch.table.filter fun e => Text.startsWith name e.1).map fun e => (e.1, e.2, attached)

/-- What an argument before the end of all switches is. -/
def Argument.read (t : Text) : Except UsageError Argument :=
  if t.head? ≠ some '-' || t = ['-'] then .ok (.value t)
  else
    match Switch.ofSpelling? t with
    | some s => .ok (.switch s (isShortSpelling t) none)
    | none =>
      let (name, attached) := splitEquals t
      match attached.bind fun v => (Switch.ofSpelling? name).map (·, v) with
      | some (s, v) => .ok (.switch s (isShortSpelling t) (some v))
      | none =>
        match candidates t with
        | [(spelling, s, attached)] => .ok (.switch s (isShortSpelling spelling) attached)
        | _ :: _ :: _ => .error (.ambiguous t ((candidates t).map (·.1)))
        | [] =>
          if isNegativeNumber t || List.contains t ' ' then .ok (.value t) else .ok (.unknown t)

/-- What the arguments are. -/
def readArguments : List Text → Except UsageError (List Argument)
  | [] => .ok []
  | t :: ts =>
    if t = ['-', '-'] then .ok (.terminator :: ts.map .value)
    else do
      let a ← Argument.read t
      let as ← readArguments ts
      return a :: as

end OfficeFormula.CommandLine
