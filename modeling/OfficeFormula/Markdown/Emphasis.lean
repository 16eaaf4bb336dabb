import OfficeFormula.Markdown.Inline

/-!
# Emphasis

Emphasised text stands between single asterisks or underscores, strong text between double ones, and
three of them mark both at once. Underscores inside a word are no marks. The forms are tried in a
fixed order at each place; what a form encloses may be made of the forms after it only. After an
element has been recognised, the list is searched from the beginning again.
-/

namespace OfficeFormula.Markdown

/-- A form whose content is read by `inner`. -/
abbrev Enclosing := (inner : List Inline → List Inline) → Form

/-- The entry before the place `n` of a list. -/
def entryBefore (n : Nat) (ps : List Inline) : Option Inline := if n = 0 then none else ps[n - 1]?

/-- A mark that begins something: one of underscores does not follow a character of a word. -/
def mayOpen (mark : Char) (previous : Option Inline) : Bool :=
  mark ≠ '_' || !(previous.any Inline.isWordPart)

/-- A mark that ends something: after one of underscores no character of a word follows. -/
def mayClose (mark : Char) (rest : List Inline) : Bool :=
  mark ≠ '_' || !(rest.head?.any Inline.isWordPart)

/-- Three marks, something up to `first` marks, and something up to `second` marks. -/
def tripled (mark : Char) (first second : Nat)
    (build : (outer inner : List Inline) → Inline) : Enclosing := fun inner _ ps =>
  if startsWithMarks mark 3 ps then
    let body := ps.drop 3
    shortest₁? (fun n rest =>
      if startsWithMarks mark first rest then
        let tail := rest.drop first
        shortest? (fun m rest =>
          if startsWithMarks mark second rest then
            some (build (inner (tail.take m)) (inner (body.take n)), 3 + n + first + m + second)
          else none) 0 tail
      else none) body
  else none

/-- Emphasised text inside strong text, both ended by three marks. -/
def strongThenBoth (mark : Char) : Enclosing := fun inner previous ps =>
  if startsWithMarks mark 2 ps && mayOpen mark previous && !startsWithMarks mark 3 ps then
    let body := ps.drop 2
    shortest₁? (fun n rest =>
      let here := startsWithMarks mark 1 rest && !startsWithMarks mark 2 rest
        && (if mark = '_' then mayOpen mark (entryBefore n body)
          else !((body.take n).any (Inline.isChar mark)))
      if here then
        let tail := rest.drop 1
        shortest₁? (fun m rest =>
          if startsWithMarks mark 3 rest && mayClose mark (rest.drop 3) then
            some (.strong (inner (body.take n) ++ [.emphasis (inner (tail.take m))]),
              2 + n + 1 + m + 3)
          else none) tail
      else none) body
  else none

/-- Something between `width` marks on either side. Between underscores it neither begins nor ends
with one; between single asterisks it has none. -/
def enclosed (mark : Char) (width : Nat) (build : List Inline → Inline) : Enclosing :=
  fun inner previous ps =>
    let smart := mark = '_'
    if startsWithMarks mark width ps && mayOpen mark previous
        && !(smart && startsWithMarks mark (width + 1) ps) then
      let body := ps.drop width
      shortest₁? (fun n rest =>
        let ends := startsWithMarks mark width rest && mayClose mark (rest.drop width)
          && !(smart && (entryBefore n body).any (Inline.isChar mark))
          && !(!smart && width = 1 && (body.take n).any (Inline.isChar mark))
        if ends then some (build (inner (body.take n)), width + n + width) else none) body
    else none

/-- The forms of emphasis with one mark, in the order in which they are tried. -/
def emphasisForms (mark : Char) : List Enclosing := [
  tripled mark 1 2 fun outer inner => .strong (.emphasis inner :: outer),
  tripled mark 2 1 fun outer inner => .emphasis (.strong inner :: outer),
  strongThenBoth mark,
  enclosed mark 2 .strong,
  enclosed mark 1 .emphasis]

/-- The first element that a form recognises: the entries before it, the element, and the entries
after it. -/
def firstElement? (form : Form) (previous : Option Inline) :
    List Inline → Option (List Inline × Inline × List Inline)
  | [] => none
  | p :: ps =>
    match form previous (p :: ps) with
    | some (i, n) => some ([], i, ps.drop (n - 1))
    | none => (firstElement? form (some p) ps).map fun (before, i, after) => (p :: before, i, after)

/-- The list with elements recognised one after the other, each time the first one, at most `fuel`
of them. Every element takes up more entries than the one that stands for it. -/
def recogniseAgain (form : Form) : (fuel : Nat) → List Inline → List Inline
  | 0, ps => ps
  | fuel + 1, ps =>
    match firstElement? form none ps with
    | some (before, i, after) => recogniseAgain form fuel (before ++ i :: after)
    | none => ps

/-- The list with all elements that a form recognises. -/
def recogniseAll (form : Form) (ps : List Inline) : List Inline :=
  recogniseAgain form ps.length ps

/-- Tries forms in order. The content of what one of them recognises is read with the forms after
it, and then by `later`. -/
def anyOf (later : List Inline → List Inline) : List Enclosing → Form
  | [] => fun _ _ => none
  | f :: fs => fun previous ps =>
    match f (fun content => later (recogniseAll (anyOf later fs) content)) previous ps with
    | some found => some found
    | none => anyOf later fs previous ps

/-- The list with the emphasis that one mark gives. -/
def recogniseEmphasis (mark : Char) (later : List Inline → List Inline) (ps : List Inline) :
    List Inline :=
  recogniseAll (anyOf later (emphasisForms mark)) ps

end OfficeFormula.Markdown
