import OfficeFormula.Markdown.Formula
import OfficeFormula.Markdown.PlainText
import OfficeFormula.Rendered.Clipboard

/-!
# Content for the clipboard

What is copied goes to the clipboard in two forms: as HTML with formulas that can be pasted, and as
plain text. A word processor takes the HTML as its own if it stands in a document that says so.
-/

namespace OfficeFormula

namespace Content

/-- What content is written in. -/
inductive SourceType where
  | markdown
  | html
deriving DecidableEq, Repr

/-- The type with this name. -/
def SourceType.ofName? (name : Text) : Option SourceType :=
  if name = "markdown".toList then some .markdown
  else if name = "html".toList then some .html
  else none

/-- What is said about a name that no type has. -/
def unknownType (name : Text) : Text :=
  "Unknown source type \"".toList ++ name
    ++ "\"; expected one of ('markdown', 'html')".toList

/-- Content that has been converted. -/
structure Converted where
  html : Text
  plainText : Text
  hasFormula : Bool

/-- The content has the mark of a formula. -/
def hasFormula (t : Text) : Bool :=
  List.contains t '$' || Text.contains "\\(".toList t || Text.contains "\\[".toList t

/-- Converts content for the clipboard. -/
def convert (type : SourceType) (settings : Settings) (engineName : String) (t : Text) :
    Attempt Converted := do
  match type with
  | .markdown =>
    let html ← Markdown.convert settings.clipboard engineName t
    return ⟨html, Markdown.plainText t, hasFormula t⟩
  | .html =>
    let engine := Latex.Engine.ofName engineName
    let html ← Rendered.convertPage { settings.clipboard with engine := engine } t
    return ⟨html, Rendered.textOf t, hasFormula t⟩

/-- The HTML is a document of its own. -/
def isDocument (html : Text) : Bool :=
  Text.startsWith "<!DOCTYPE".toList html.trim || Text.startsWith "<html".toList html.trim

/-- What stands before the content of a word processor's document. -/
def documentStart : String :=
  "<!DOCTYPE html>
<html xmlns:o=\"urn:schemas-microsoft-com:office:office\"
      xmlns:w=\"urn:schemas-microsoft-com:office:word\"
      xmlns:m=\"http://schemas.openxmlformats.org/officeDocument/2006/math\"
      xmlns=\"http://www.w3.org/1999/xhtml\">
<head>
<meta http-equiv=\"Content-Type\" content=\"text/html; charset=utf-8\">
<meta name=\"ProgId\" content=\"Word.Document\">
<meta name=\"Generator\" content=\"mathpaste\">
</head>
<body>
<!--StartFragment-->
"

/-- What stands after the content of a word processor's document. -/
def documentEnd : String := "
<!--EndFragment-->
</body>
</html>"

/-- The HTML as a document that a word processor takes as its own. -/
def wrapDocument (html : Text) : Text :=
  if isDocument html then html else documentStart.toList ++ html ++ documentEnd.toList

end Content

end OfficeFormula
