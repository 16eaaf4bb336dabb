import OfficeFormula.Text.Basic

/-!
# Blank characters

The characters that separate words: the Unicode white space and the four ASCII information
separators. Every place that trims, collapses or skips blanks uses this one class.
-/

namespace OfficeFormula

/-- The blank code points, as closed ranges. -/
def blankRanges : List (Nat × Nat) := [
  (0x9, 0xD), (0x1C, 0x20), (0x85, 0x85), (0xA0, 0xA0), (0x1680, 0x1680), (0x2000, 0x200A),
  (0x2028, 0x2029), (0x202F, 0x202F), (0x205F, 0x205F), (0x3000, 0x3000)]

/-- A character that separates words. -/
def isBlank (c : Char) : Bool := inRanges blankRanges c.toNat

/-- A space or a tab: the blanks that may surround something on one line. -/
def isTabOrSpace (c : Char) : Bool := c == ' ' || c == '\t'

namespace Text

/-- The text without its leading blanks. -/
def trimStart (t : Text) : Text := t.dropWhile isBlank

/-- The text without its trailing blanks. -/
def trimEnd (t : Text) : Text := (t.reverse.dropWhile isBlank).reverse

/-- The text without the blanks around it. -/
def trim (t : Text) : Text := t.trimStart.trimEnd

/-- The words of the text: its longest stretches without a separator. -/
def wordsBy (isSeparator : Char → Bool) : Text → List Text
  | [] => []
  | c :: cs =>
    if isSeparator c then wordsBy isSeparator cs
    else match cs with
      | [] => [[c]]
      | d :: _ =>
        if isSeparator d then [c] :: wordsBy isSeparator cs
        else match wordsBy isSeparator cs with
          | [] => [[c]]
          | w :: ws => (c :: w) :: ws

/-- The text without the blanks around it, and with one space for all blanks between two words. -/
def collapse (t : Text) : Text := join [' '] (t.wordsBy isBlank)

/-- No character of the text is other than blank. -/
def isAllBlank (t : Text) : Bool := t.all isBlank

/-- What follows the line end at the head of the text, after spaces and tabs. -/
def afterLineEnd? (t : Text) : Option Text :=
  match t.dropWhile isTabOrSpace with
  | '\n' :: rest => some rest
  | _ => none

theorem length_lt_of_afterLineEnd? {t rest : Text} (h : afterLineEnd? t = some rest) :
    rest.length < t.length := by
  unfold afterLineEnd? at h
  split at h
  · next heq =>
    have := (List.dropWhile_sublist isTabOrSpace (l := t)).length_le
    rw [heq] at this
    simp only [Option.some.injEq] at h
    subst h
    simp only [List.length_cons] at this
    omega
  · simp at h

end Text

end OfficeFormula
