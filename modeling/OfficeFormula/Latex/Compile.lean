import OfficeFormula.Latex.LineBreak
import OfficeFormula.Latex.Markup
import OfficeFormula.MathML.Compile

/-!
# LaTeX ready to be pasted

`compile` always gives markup. The native engine parses the formula itself. The other engine asks a
converter for MathML and falls back on the native one where the converter fails. A formula whose
conversion breaks off is kept as its source.
-/

namespace OfficeFormula.Latex

open Report (Reported)

/-- How formulas are converted. -/
inductive Engine where
  | native
  | mathml
deriving DecidableEq, Repr

/-- The engine with this name. -/
def Engine.ofName? (name : String) : Option Engine :=
  if name = "native" then some .native
  else if name = "mathml" then some .mathml
  else none

/-- The engine with this name; the native one for a name that no engine has. -/
def Engine.ofName (name : String) : Engine := (Engine.ofName? name).getD .native

def Engine.name : Engine → String
  | .native => "native"
  | .mathml => "mathml"

/-- Where messages about LaTeX come from. -/
def location : Text := "mathpaste.latex".toList

/-- A formula is kept as its source, with a message that says why. -/
def keepSource (cause : Report.Cause) (source : Text) (display : Bool) : Reported Text := do
  Reported.tell (Report.failure location cause source)
  return Omml.wrap (Omml.fallback source) display

/-- The markup of a formula as the native engine gives it; `source` is the formula as it came. -/
def compileNative (host : Host) (source formula : Text) (display : Bool) : Reported Text :=
  match host.latexFailure? (tokenize formula) with
  | some cause => keepSource cause source display
  | none =>
    match formulaMarkup formula with
    | .ok markup => return Omml.wrap markup display
    | .error e => keepSource ⟨"ValueError".toList, e.message.toList⟩ source display

/-- The warning about a formula that the converter does not accept. -/
def conversionFailed (formula reason : Text) : Report.Message :=
  Report.warning location ("latex2mathml could not convert \"".toList ++ formula ++ "\" (".toList
    ++ reason ++ "); using the native engine instead".toList)

/-- The markup of a formula, displayed on a line of its own or not. -/
def compile (host : Host) (engine : Engine) (source : Text) (display : Bool) : Reported Text := do
  let formula := repairLineBreaks source.trim
  if engine = .mathml ∧ formula ≠ [] then
    match host.converter formula display with
    | .ok mathml => MathML.compile host (.text mathml) (some display)
    | .error reason =>
      Reported.tell (conversionFailed formula reason)
      compileNative host source formula display
  else compileNative host source formula display

end OfficeFormula.Latex
