import OfficeFormula.Text.Blank
import OfficeFormula.Text.Word

/-!
# Running text in Markdown

The content of a paragraph is a list of inline elements. While it is being read, the characters that
no element has been made of stand in the list one by one, as `Inline.char`, and an element that has
been recognised is a single entry for everything that is recognised later.
-/

namespace OfficeFormula.Markdown

/-- Which forms a document may use. -/
inductive Dialect where
  /-- The forms that Markdown has always had. -/
  | basic
  /-- Also tables, fenced code and struck text. Every line end breaks the line, and a list holds
  items of one kind. -/
  | extended
deriving DecidableEq, Repr

/-- Characters that stand for themselves after a backslash. -/
def Dialect.isEscapable (d : Dialect) (c : Char) : Bool :=
  "\\`*_\x7b\x7d[]()>#+-.!".toList.contains c || (d = .extended && "|~ ".toList.contains c)

inductive Inline where
  | char (c : Char)
  /-- Text in which no marks are looked for. -/
  | text (t : Text)
  /-- Markup that stands as it was written. -/
  | raw (t : Text)
  | code (t : Text)
  | lineBreak
  | strong (content : List Inline)
  | emphasis (content : List Inline)
  | deleted (content : List Inline)
  | subscript (content : List Inline)
  | link (target : Text) (title : Option Text) (content : List Inline)
  | image (target : Text) (title : Option Text) (description : Text)

namespace Inline

/-- The entry is this character. -/
def isChar (c : Char) : Inline → Bool
  | char d => c = d
  | _ => false

/-- The entry is a blank character. -/
def isBlankChar : Inline → Bool
  | char c => isBlank c
  | _ => false

/-- The entry is a character of a word. -/
def isWordPart : Inline → Bool
  | char c => isWordChar c
  | _ => false

/-- What is written as part of the text around it. -/
def isTextual : Inline → Bool
  | char _ | text _ | raw _ => true
  | _ => false

/-- Nothing but blanks. -/
def isBlankText : Inline → Bool
  | char c => isBlank c
  | text t => t.all isBlank
  | _ => false

mutual

/-- What an entry says, without its marks. -/
def plain : Inline → Text
  | char c => [c]
  | text t | raw t | code t => t
  | lineBreak => []
  | strong content | emphasis content | deleted content | subscript content
  | link _ _ content => plainAll content
  | image _ _ _ => []

def plainAll : List Inline → Text
  | [] => []
  | i :: is => i.plain ++ plainAll is

end

end Inline

/-- The list begins with `n` times the character `c`. -/
def startsWithMarks (c : Char) (n : Nat) (ps : List Inline) : Bool :=
  (ps.take n).length = n && (ps.take n).all (Inline.isChar c)

/-- The least number of entries, from `n` on, after which `f` accepts what is left. `n` entries have
been passed already. -/
def shortest? {β : Type} (f : Nat → List Inline → Option β) (n : Nat) : List Inline → Option β
  | [] => f n []
  | p :: ps =>
    match f n (p :: ps) with
    | some b => some b
    | none => shortest? f (n + 1) ps

/-- As `shortest?`, with one entry passed at least. -/
def shortest₁? {β : Type} (f : Nat → List Inline → Option β) : List Inline → Option β
  | [] => none
  | _ :: ps => shortest? f 1 ps

/-- Recognises an element at the head of a list, with the entry before it, and says how many entries
it is made of. -/
abbrev Form := (previous : Option Inline) → List Inline → Option (Inline × Nat)

/-- The list with every element that a form recognises, from left to right. -/
def recognise (form : Form) (previous : Option Inline) : List Inline → List Inline
  | [] => []
  | p :: ps =>
    match form previous (p :: ps) with
    | some (i, n) => i :: recognise form (some i) (ps.drop (n - 1))
    | none => p :: recognise form (some p) ps
termination_by ps => ps.length
decreasing_by all_goals simp; try omega

end OfficeFormula.Markdown
