import OfficeFormula.CommandLine.Switch

/-!
# Options of the command line

The arguments are taken from left to right. Of a switch that is repeated the last value counts. The
first value that belongs to no switch is the input; all further ones are a mistake, which is found
only after everything else has been taken.
-/

namespace OfficeFormula.CommandLine

/-- The name of standard input and output. -/
def standard : Text := ['-']

/-- What the command line asks for. -/
structure Options where
  input : Text
  output : Option Text
  preview : Bool
  fragment : Bool
  html : Bool
  engine : Latex.Engine
  noSoftParentheses : Bool
  latex : Option Text
  display : Bool

/-- What holds where the command line says nothing. -/
def Options.default : Options := ⟨standard, none, false, false, false, .native, false, none, false⟩

/-- Why the program ends with the command line. -/
inductive Stop where
  | mistake (e : UsageError)
  | version
  | help

/-- A switch and its value, which is empty for a switch that takes none. -/
abbrev Action := Switch × Text

/-- What a switch without an attached value does; `next` is the value after it. Says whether that
value has been used. -/
def actionOf (s : Switch) (next : Option Text) : Except Stop (List Action × Bool) :=
  if s.takesValue then
    match next with
    | some v => .ok ([(s, v)], true)
    | none => .error (.mistake (.valueMissing s))
  else .ok ([(s, [])], false)

/-- What a switch with an attached value does. After a short switch that takes no value, the letters
of further short switches may follow. -/
def actionsAttached (s : Switch) (isShort : Bool) (next : Option Text) :
    (attached : Text) → Except Stop (List Action × Bool)
  | [] => if s.takesValue then .ok ([(s, [])], false) else .error (.mistake (.valueIgnored s []))
  | c :: cs =>
    if s.takesValue then .ok ([(s, c :: cs)], false)
    else
      match (if isShort then Switch.ofSpelling? ['-', c] else none) with
      | none => .error (.mistake (.valueIgnored s (c :: cs)))
      | some s' => do
        let (actions, used) ←
          if cs = [] then actionOf s' next else actionsAttached s' true next cs
        return ((s, []) :: actions, used)

/-- The options after one action. -/
def Options.apply (o : Options) (a : Action) : Except Stop Options :=
  match a.1 with
  | .help => .error .help
  | .version => .error .version
  | .output => .ok { o with output := some a.2 }
  | .preview => .ok { o with preview := true }
  | .fragment => .ok { o with fragment := true }
  | .html => .ok { o with html := true }
  | .latexEngine =>
    match Latex.Engine.ofName? (String.ofList a.2) with
    | some engine => .ok { o with engine := engine }
    | none => .error (.mistake (.invalidEngine a.2))
  | .noSoftParentheses => .ok { o with noSoftParentheses := true }
  | .latex => .ok { o with latex := some a.2 }
  | .display => .ok { o with display := true }

/-- What has been taken from the command line. -/
structure Taken where
  options : Options
  /-- The input has been taken. -/
  hasInput : Bool
  /-- Arguments that mean nothing. -/
  unrecognised : List Text

namespace Taken

/-- A value that belongs to no switch. -/
def addValue (t : Taken) (v : Text) : Taken :=
  if t.hasInput then { t with unrecognised := t.unrecognised ++ [v] }
  else { t with options := { t.options with input := v }, hasInput := true }

/-- An argument that means nothing. -/
def addUnrecognised (t : Taken) (v : Text) : Taken :=
  { t with unrecognised := t.unrecognised ++ [v] }

end Taken

/-- The value that an argument is. -/
def Argument.value? : Argument → Option Text
  | .value v => some v
  | _ => none

/-- The end of all switches belongs to the input if it stands next to it, on either side. -/
def dropTerminator : List Argument → List Argument
  | .terminator :: as => as
  | as => as

theorem length_dropTerminator_le (as : List Argument) : (dropTerminator as).length ≤ as.length := by
  unfold dropTerminator
  split <;> simp

/-- Takes all arguments. -/
def take (t : Taken) : List Argument → Except Stop Taken
  | [] => .ok t
  | .value v :: as =>
    if t.hasInput then take (t.addValue v) as
    else
      have := length_dropTerminator_le as
      take (t.addValue v) (dropTerminator as)
  | .unknown v :: as => take (t.addUnrecognised v) as
  | .terminator :: as =>
    if t.hasInput then take (t.addUnrecognised ['-', '-']) as else take t as
  | .switch s isShort attached :: as => do
    let next := as.head?.bind Argument.value?
    let (actions, used) ← match attached with
      | none => actionOf s next
      | some v => actionsAttached s isShort next v
    let options ← actions.foldlM Options.apply t.options
    let t := { t with options := options }
    if used then take t (as.drop 1) else take t as
termination_by as => as.length
decreasing_by all_goals (simp; try omega)

/-- The options that arguments ask for. -/
def readOptions (arguments : List Text) : Except Stop Options := do
  let as ← (readArguments arguments).mapError .mistake
  let t ← take ⟨Options.default, false, []⟩ as
  if t.unrecognised = [] then return t.options
  else throw (.mistake (.unrecognised t.unrecognised))

end OfficeFormula.CommandLine
