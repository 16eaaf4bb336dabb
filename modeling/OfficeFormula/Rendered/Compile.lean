import OfficeFormula.MathML.Extract
import OfficeFormula.Rendered.Source
import OfficeFormula.Settings

/-!
# Rendered formulas ready to be pasted

A rendered formula is converted from the best that is left of it: its MathML, its LaTeX source, or
words that stand for it. For a browser it stays as it is. The markup has to be read for that, and a
document without a body cannot be.
-/

namespace OfficeFormula

open Report (Reported)

/-- A result with messages, or messages and why a document could not be read. -/
abbrev Attempt := ExceptT Markup.Html.Unreadable Reported

namespace Rendered

/-- Where messages about rendered formulas come from. -/
def location : Text := "mathpaste.rendered".toList

/-- The MathML inside a rendered formula, if it can be read. -/
def mathML? (markup : Text) : Option Markup.Node :=
  (MathML.extract? markup).bind Markup.Xml.read?

/-- A rendered formula as a browser shows it. -/
def preserve (markup : Text) : Text :=
  "<span class=\"preserved-math\">".toList ++ markup ++ "</span>".toList

/-- The markup to paste for a rendered formula whose markup can be read. -/
def compileForClipboard (settings : Settings) (markup : Text) : Reported Text := do
  let (latex, display) := latexSource? markup
  match mathML? markup with
  | some math => MathML.compile settings.host (.tree math) (if display then some true else none)
  | none =>
    match latex.or (plainText? markup) with
    | some source => settings.compileLatex source display
    | none =>
      Reported.tell (Report.warning location
        "Could not find any content in rendered math".toList)
      return Omml.wrap (Omml.fallback []) display

/-- What a rendered formula becomes under these settings. -/
def compile (settings : Settings) (markup : Text) : Attempt Text := do
  if settings.forClipboard then
    let _ ← Markup.Html.readFragment markup
    compileForClipboard settings markup
  else return preserve markup

end Rendered

end OfficeFormula
