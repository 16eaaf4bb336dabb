import OfficeFormula.Span.Placeholder
import OfficeFormula.Markdown.Render
import OfficeFormula.Text.Word

/-!
# The source of a Markdown document

Before blocks are read, line ends and tabs are made uniform, and fenced code is set aside. A mark
that no text can hold stands for the code, on a line of its own, until the document has been
written.
-/

namespace OfficeFormula.Markdown

/-- The character that a mark of code begins with. -/
def markStart : Char := '\x02'

/-- The character that a mark of code ends with. -/
def markEnd : Char := '\x03'

/-- Every line end as a newline. -/
def uniformLineEnds : Text → Text
  | [] => []
  | '\r' :: '\n' :: cs | '\r' :: cs => '\n' :: uniformLineEnds cs
  | c :: cs => c :: uniformLineEnds cs

/-- Spaces in place of tabs, up to the next column that is a multiple of four. -/
def expandTabs (column : Nat) : Text → Text
  | [] => []
  | c :: cs =>
    if c = '\t' then
      let width := 4 - column % 4
      List.replicate width ' ' ++ expandTabs (column + width) cs
    else c :: expandTabs (if c = '\n' then 0 else column + 1) cs

/-- Lines of spaces as empty lines, the first line apart. -/
def emptyBlankLines (lines : List Text) : List Text :=
  lines.take 1 ++ (lines.drop 1).map fun l => if l.all (· = ' ') then [] else l

/-- The text in uniform shape, with two empty lines at its end. -/
def normalize (source : Text) : Text :=
  let t := uniformLineEnds (source.filter fun c => c ≠ markStart && c ≠ markEnd)
  Text.join ['\n'] (emptyBlankLines (Text.lines (expandTabs 0 (t ++ "\n\n".toList))))

/-- The mark that stands for the code with this number. -/
def codeMark (i : Nat) : Text := markStart :: Span.decimal i ++ [markEnd]

/-- A character of the name of a language. -/
def isLanguageChar (c : Char) : Bool := isWordChar c || "#.+-".toList.contains c

/-- The fence and the language on a line that opens fenced code. -/
def openingFence? (line : Text) : Option (Text × Text) :=
  match line with
  | [] => none
  | c :: _ =>
    let fence := line.takeWhile (· = c)
    let info := (line.drop fence.length).dropWhile (· = ' ')
    let name := match info with
      | '.' :: cs => cs
      | cs => cs
    let language := name.takeWhile isLanguageChar
    if (c = '`' || c = '~') && 3 ≤ fence.length && (name.drop language.length).all (· = ' ')
    then some (fence, language)
    else none

/-- The line closes the code that `fence` has opened. -/
def closesFence (fence line : Text) : Bool :=
  line.take fence.length = fence && (line.drop fence.length).all (· = ' ')

/-- Code as it is written. -/
def escapeCode (t : Text) : Text :=
  t.flatMap fun c => if c = '"' then "&quot;".toList else Markup.escapeChar c

/-- The written form of fenced code. -/
def renderCode (language : Text) (lines : List Text) : Text :=
  let attrs := if language = [] then []
    else attributeText "class" ("language-".toList ++ language)
  "<pre><code".toList ++ attrs ++ '>' :: escapeCode (lines.flatMap (· ++ ['\n']))
    ++ "</code></pre>".toList

/-- The lines with a mark between empty lines in place of fenced code, and the code that has been
set aside, after what is in `code` already. -/
def setAsideCode (code : List Text) : List Text → List Text × List Text
  | [] => (code, [])
  | l :: ls =>
    match openingFence? l with
    | none =>
      let (code, ls) := setAsideCode code ls
      (code, l :: ls)
    | some (fence, language) =>
      let inside := ls.takeWhile fun line => !closesFence fence line
      if inside.length < ls.length then
        let mark := codeMark code.length
        let (code, rest) :=
          setAsideCode (code ++ [renderCode language inside]) (ls.drop (inside.length + 1))
        (code, [] :: mark :: [] :: rest)
      else
        let (code, ls) := setAsideCode code ls
        (code, l :: ls)
termination_by ls => ls.length
decreasing_by all_goals (simp only [List.length_cons, List.length_drop]; omega)

/-- The written document with code with numbers from `i` on in place of its marks. -/
def restoreCodeFrom (i : Nat) : List Text → Text → Text
  | [], t => t
  | code :: more, t =>
    restoreCodeFrom (i + 1) more
      (Text.replaceAll (codeMark i) code (Text.replaceAll (tagged "p" (codeMark i)) code t))

/-- The written document with code in place of its marks. -/
def restoreCode (code : List Text) (t : Text) : Text := restoreCodeFrom 0 code t

end OfficeFormula.Markdown
