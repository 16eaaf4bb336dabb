import OfficeFormula.Latex.Token
import OfficeFormula.Markup.Tree
import OfficeFormula.Report.Message

/-!
# The host

What a conversion asks of the system under it. A formula is converted from the inside of one item to
the inside of the next, and no host follows that to any depth. Where it breaks off differs from host
to host, and on one host with what else is going on. So it is not counted here: a `Host` says of each
formula whether its conversion breaks off. It also has the converter to MathML, if there is one, and
the words in which its XML reader refuses a text.
-/

namespace OfficeFormula

/-- A converter from LaTeX to MathML, for formulas inside a line or displayed; it may fail with a
reason. -/
abbrev Latex.Converter := (formula : Text) → (display : Bool) → Except Text Text

/-- A conversion that breaks off. -/
structure Interruption where
  cause : Report.Cause
  /-- How many warnings have been given by then. -/
  warnings : Nat

/-- The system that a conversion runs on. -/
structure Host where
  converter : Latex.Converter
  /-- Why the conversion of a LaTeX formula breaks off, if it does. -/
  latexFailure? : List Latex.Token → Option Report.Cause
  /-- Where and why the conversion of a `math` element breaks off, if it does. -/
  mathMLFailure? : Markup.Node → Option Interruption
  /-- What the XML reader says about a text that it does not accept. -/
  objection : Text → Text

/-- A host that follows every formula to its end and has no converter. -/
def Host.tireless : Host where
  converter _ _ := .error "no converter available".toList
  latexFailure? _ := none
  mathMLFailure? _ := none
  objection _ := "not well-formed".toList

end OfficeFormula
