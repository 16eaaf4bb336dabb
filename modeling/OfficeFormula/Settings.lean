import OfficeFormula.Latex.Compile
import OfficeFormula.Text.Lowercase

/-!
# Settings of a conversion
-/

namespace OfficeFormula

/-- What a conversion is to give, and by which means. -/
structure Settings where
  /-- Formulas become markup that can be pasted; otherwise what a browser shows. -/
  forClipboard : Bool
  engine : Latex.Engine
  /-- Formulas are looked for in plain parentheses too. -/
  softParentheses : Bool
  host : Host

namespace Settings

/-- The same settings, for the clipboard. -/
def clipboard (s : Settings) : Settings := { s with forClipboard := true }

/-- The markup of a LaTeX formula under these settings. -/
def compileLatex (s : Settings) (source : Text) (display : Bool) : Report.Reported Text :=
  Latex.compile s.host s.engine source display

/-- The words that turn a setting on. -/
def wordsForOn : List String := ["true", "yes", "y", "on", "1"]

/-- The words that turn a setting off. -/
def wordsForOff : List String := ["false", "no", "n", "off", "0", "none"]

/-- Whether a word, in whatever case, turns a setting on or off. -/
def switchOfWord? (word : Text) : Option Bool :=
  let word := String.ofList word.lower
  if wordsForOn.contains word then some true
  else if wordsForOff.contains word then some false
  else none

end Settings

end OfficeFormula
