import OfficeFormula.Markdown.Block
import OfficeFormula.Markdown.Reference
import OfficeFormula.Markup.Escape

/-!
# Markdown as HTML

Every block begins on a line of its own, and so does what follows a line break.
-/

namespace OfficeFormula.Markdown

open OfficeFormula.Markup (escape escapeChar)

/-- The value of an attribute as it is written. References stay as they are. -/
def escapeValue : Text → Text
  | [] => []
  | c :: cs =>
    (if c = '"' then "&quot;".toList
      else if c = '&' && startsReference cs then ['&']
      else escapeChar c) ++ escapeValue cs

/-- An attribute, after the blank that separates it. -/
def attributeText (name : String) (value : Text) : Text :=
  ' ' :: name.toList ++ "=\"".toList ++ escapeValue value ++ ['"']

/-- An element around written content. -/
def tagged (name : String) (content : Text) : Text :=
  '<' :: name.toList ++ '>' :: content ++ "</".toList ++ name.toList ++ ['>']

/-- The attribute for a title, where there is one. -/
def titleText (title : Option Text) : Text := ((title.map (attributeText "title")).getD [])

mutual

/-- The written form of one element. -/
def renderInline : Inline → Text
  | .char c => escapeChar c
  | .text t => escape t
  | .raw t => t
  | .code t => tagged "code" (escape t)
  | .lineBreak => "<br />\n".toList
  | .strong content => tagged "strong" (renderPhrase content)
  | .emphasis content => tagged "em" (renderPhrase content)
  | .deleted content => tagged "del" (renderPhrase content)
  | .subscript content => tagged "sub" (renderPhrase content)
  | .link target title content =>
    "<a".toList ++ attributeText "href" target ++ titleText title ++ '>' :: renderPhrase content
      ++ "</a>".toList
  | .image target title description =>
    "<img".toList ++ attributeText "alt" description ++ attributeText "src" target
      ++ titleText title ++ " />".toList

/-- The written form of running text. -/
def renderPhrase : List Inline → Text
  | [] => []
  | i :: is => renderInline i ++ renderPhrase is

end

/-- Texts on lines of their own, between the tags of an element. -/
def renderLines (start : Text) (name : String) (lines : List Text) : Text :=
  Text.join ['\n'] (start :: lines ++ ["</".toList ++ name.toList ++ ['>']])

/-- A start tag without attributes. -/
def startTag (name : String) : Text := '<' :: name.toList ++ ['>']

def renderItem (i : Item) : Text :=
  if i.isLoose then renderLines (startTag "li") "li" [tagged "p" (renderPhrase i.content)]
  else tagged "li" (renderPhrase i.content)

/-- What is written for the alignment of a cell. -/
def Alignment.style : Alignment → Text
  | none => []
  | left => attributeText "style" "text-align: left;".toList
  | center => attributeText "style" "text-align: center;".toList
  | right => attributeText "style" "text-align: right;".toList

/-- A row of cells with this name. -/
def renderRow (columns : List Alignment) (name : String) (row : List (List Inline)) : Text :=
  renderLines (startTag "tr") "tr" ((columns.zip row).map fun (a, cell) =>
    '<' :: name.toList ++ a.style ++ '>' :: renderPhrase cell
      ++ "</".toList ++ name.toList ++ ['>'])

def renderTable (t : Table) : Text :=
  renderLines (startTag "table") "table" [
    renderLines (startTag "thead") "thead" [renderRow t.columns "th" t.header],
    renderLines (startTag "tbody") "tbody" (t.rows.map (renderRow t.columns "td"))]

/-- The name of the element for a list. -/
def ListKind.tag : ListKind → String
  | bullets => "ul"
  | numbers _ => "ol"

/-- The start tag for a list. -/
def ListKind.start : ListKind → Text
  | bullets => startTag "ul"
  | numbers first =>
    "<ol".toList ++ ((first.map (attributeText "start")).getD []) ++ ['>']

/-- The name of the element for a heading. -/
def headingTag (level : Nat) : String := String.ofList ('h' :: Nat.toDigits 10 level)

mutual

/-- The written form of a block. -/
def renderBlock : Block → Text
  | .paragraph content => tagged "p" (renderPhrase content)
  | .heading level content => tagged (headingTag level) (renderPhrase content)
  | .rule => "<hr />".toList
  | .code lines =>
    "<pre><code>".toList ++ escape (Text.trimEnd (Text.join ['\n'] lines))
      ++ "\n</code></pre>".toList
  | .list kind items => renderLines kind.start kind.tag (items.map renderItem)
  | .table t => renderTable t
  | .quote content => renderLines (startTag "blockquote") "blockquote" (renderEach content)

def renderEach : List Block → List Text
  | [] => []
  | b :: bs => renderBlock b :: renderEach bs

end

/-- The written form of a document. -/
def render (bs : List Block) : Text := (Text.join ['\n'] (renderEach bs)).trim

end OfficeFormula.Markdown
