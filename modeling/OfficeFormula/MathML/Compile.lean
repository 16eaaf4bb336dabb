import OfficeFormula.Host
import OfficeFormula.Markup.Xml.Document
import OfficeFormula.MathML.Markup
import OfficeFormula.Omml.Wrapper
import OfficeFormula.Report.Journal

/-!
# MathML ready to be pasted

`compile` always gives markup. A formula that cannot be converted is kept as its text, and a message
says why.
-/

namespace OfficeFormula.MathML

open Markup (Node)
open Report (Reported)

/-- What a formula is given as. -/
inductive Source where
  /-- Written MathML. -/
  | text (t : Text)
  /-- An element that has been read already. -/
  | tree (n : Node)
  | missing

/-- Where messages about MathML come from. -/
def location : Text := "mathpaste.mathml".toList

/-- No formula at all. -/
def missingCause : Report.Cause :=
  ⟨"ValueError".toList, "Invalid input tag of type <class 'NoneType'>".toList⟩

/-- The text that is kept of a source that cannot be converted. -/
def Source.plainText : Source → Text
  | .text t => Omml.stripTags t
  | .tree n => trimmedText n
  | .missing => []

/-- The text of a source in which written markup may be at fault. -/
def Source.code : Source → Text
  | .text t => t
  | .tree _ | .missing => []

/-- Markup of a text that stands for a formula. -/
def plainMarkup (t : Text) (display : Bool) : Text := Omml.wrap (Omml.fallback t) display

/-- The warning about an unknown element. -/
def unknownElement (name : Text) : Report.Message :=
  Report.warning location ("Unknown MathML element <".toList ++ name ++ ['>'])

/-- Whether a `math` element asks to be displayed on a line of its own. -/
def asksForDisplay : Node → Bool
  | .element _ attrs _ => Markup.attr? attrs "display" == some "block".toList
  | .text _ | .comment _ => false

/-- Gives the warnings about unknown elements. -/
def warn (names : List Text) : Reported Unit := ⟨(), names.map unknownElement⟩

/-- The markup of a tree that was read from `source`. Where the conversion breaks off, the warnings
up to there have been given. -/
def compileTree (host : Host) (source : Source) (root : Node) (display : Option Bool) :
    Reported Text := do
  match findMath? root with
  | none =>
    Reported.tell (Report.warning location "No <math> element found".toList)
    return plainMarkup (trimmedText root) (display.getD false)
  | some math =>
    let display := display.getD (asksForDisplay math)
    let converted := convertMath math
    match host.mathMLFailure? math with
    | some interruption =>
      warn (converted.unknown.take interruption.warnings)
      Reported.tell (Report.failure location interruption.cause source.code)
      return plainMarkup source.plainText display
    | none =>
      warn converted.unknown
      return Omml.wrap (Omml.formula converted.nodes).render display

/-- The warning about a text that the XML reader does not accept. -/
def malformed (objection : Text) : Report.Message :=
  Report.warning location
    ("Malformed MathML (".toList ++ objection ++ "); keeping its text only".toList)

/-- The markup of a formula given as MathML. Where `display` does not say whether it stands on a
line of its own, the formula does. -/
def compile (host : Host) (source : Source) (display : Option Bool) : Reported Text := do
  match source with
  | .tree root => compileTree host source root display
  | .text t =>
    match Markup.Xml.read? t.trim with
    | some root => compileTree host source root display
    | none =>
      Reported.tell (malformed (host.objection t.trim))
      return plainMarkup source.plainText (display.getD false)
  | .missing =>
    Reported.tell (Report.failure location missingCause [])
    return plainMarkup source.plainText (display.getD false)

end OfficeFormula.MathML
