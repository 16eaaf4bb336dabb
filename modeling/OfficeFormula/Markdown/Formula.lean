import OfficeFormula.Markdown.Source
import OfficeFormula.Markdown.Structure
import OfficeFormula.Rendered.Compile
import OfficeFormula.Span.Protect

/-!
# Formulas in Markdown

Formulas are set aside before a document is read and put back after it has been written: as markup
to paste, or as MathML to show in a browser. A `Session` keeps the formulas in between.
-/

namespace OfficeFormula.Markdown

open Report (Reported)

/-- Where messages about formulas in Markdown come from. -/
def location : Text := "mathpaste.word_math".toList

/-- Text as it is written in HTML, quotes included. -/
def escapeAll (t : Text) : Text :=
  t.flatMap fun c =>
    if c = '"' then "&quot;".toList else if c = '\'' then "&#x27;".toList else Markup.escapeChar c

/-- An element with a class around written content. -/
def classed (name : String) (content : Text) : Text :=
  "<span".toList ++ attributeText "class" name.toList ++ '>' :: content ++ "</span>".toList

/-- A formula as a browser shows it. One that cannot be converted is shown as it was written. -/
def preview (converter : Latex.Converter) (formula : Text) (block : Bool) : Reported Text :=
  match converter formula block with
  | .ok mathml => pure (classed (if block then "math-block" else "math-inline") mathml)
  | .error reason => do
    Reported.tell (Report.warning location
      ("Could not preview \"".toList ++ formula ++ "\": ".toList ++ reason))
    return classed "math-error" (escapeAll formula)

/-- What a formula becomes under these settings. -/
def resolve (settings : Settings) (kind : Span.Kind) (content : Text) : Attempt Text :=
  match kind with
  | .rendered => Rendered.compile settings content
  | .block => latex true
  | .inline => latex false
where
  latex (block : Bool) : Reported Text :=
    if settings.forClipboard then settings.compileLatex content block
    else preview settings.host.converter content block

/-- The engine with a name that a user has given. -/
def acceptEngine (name : String) : Reported Latex.Engine :=
  match Latex.Engine.ofName? name with
  | some engine => pure engine
  | none => do
    Reported.tell (Report.error location ("Invalid value \"".toList ++ name.toList
      ++ "\" for config option \"latex_engine\"".toList))
    return .native

/-- A line break tag. -/
def breakTag : Span.Recogniser := fun _ t => do
  let rest ← Text.afterWord? "<br".toList t
  let rest : Text := rest.dropWhile isBlank
  let rest := if rest.head? = some '/' then rest.drop 1 else rest
  let rest ← Text.after? ['>'] rest
  return ⟨t.length - rest.length, ['\n']⟩

/-- The conversion of documents, with the formulas of the last one. -/
structure Session where
  settings : Settings
  spans : List Span.Entry

namespace Session

/-- No document has been converted yet. -/
def new (settings : Settings) : Session := ⟨settings, []⟩

/-- No formulas are kept. -/
def reset (s : Session) : Session := { s with spans := [] }

/-- Sets the formulas of a document aside. A tag that breaks the line counts as a line end. -/
def protectLines (s : Session) (lines : List Text) : Session × List Text :=
  let text := Span.replaceFound breakTag (Text.join ['\n'] lines)
  let (carrier, spans) := Span.protect s.settings.softParentheses text
  ({ s with spans := spans }, Text.lines carrier)

/-- Puts formulas back in place of their placeholders. -/
def restore (s : Session) (t : Text) : Attempt Text := do
  let replacements ← s.spans.mapM fun e => do
    return (e.word, ← resolve s.settings e.kind e.content)
  return Span.restore replacements t

/-- Converts a document to HTML. -/
def convert (d : Dialect) (s : Session) (source : Text) : Attempt (Session × Text) := do
  if source.trim = [] then return (s, [])
  else
    let lines := Text.lines (normalize source)
    let (code, lines) := if d = .extended then setAsideCode [] lines else ([], lines)
    let (s, lines) := s.protectLines lines
    let lines := Text.lines (closeReferences (Text.join ['\n'] lines))
    let html ← s.restore (restoreCode code (render (blocks d lines)))
    return (s, html.trim)

end Session

/-- Converts a document to HTML, with an engine that the user has named. -/
def convert (settings : Settings) (engineName : String) (source : Text) : Attempt Text := do
  let engine ← acceptEngine engineName
  let (_, html) ← (Session.new { settings with engine := engine }).convert .extended source
  return html

end OfficeFormula.Markdown
