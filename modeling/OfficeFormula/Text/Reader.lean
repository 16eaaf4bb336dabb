import OfficeFormula.Text.Basic

/-!
# Readers

A reader takes a beginning of a text and gives a value and the rest of the text, or fails. Readers
are put together with `do` and `<|>`; the only loop is `many`, which ends because it goes on only
after the text has become shorter.
-/

namespace OfficeFormula

/-- Takes a beginning of a text and gives a value and the rest, or fails. -/
abbrev Reader (α : Type) := StateT Text Option α

namespace Reader

/-- As many values as `p` gives one after the other, and the rest. -/
def collect {α : Type} (p : Reader α) (t : Text) : List α × Text :=
  match p t with
  | none => ([], t)
  | some (a, rest) =>
    if rest.length < t.length then
      let (as, rest') := collect p rest
      (a :: as, rest')
    else ([], t)
termination_by t.length

/-- As many values as `p` gives; perhaps none. -/
def many {α : Type} (p : Reader α) : Reader (List α) := fun t => some (collect p t)

/-- One character of which `p` holds. -/
def char (p : Char → Bool) : Reader Char
  | c :: cs => if p c then some (c, cs) else none
  | [] => none

/-- The characters of which `p` holds; perhaps none. -/
def takeWhile (p : Char → Bool) : Reader Text := fun t => some (t.takeWhile p, t.dropWhile p)

/-- Exactly this text. -/
def literal (s : String) : Reader Unit := fun t => (Text.after? s.toList t).map ((), ·)

/-- The shortest stretch before `s`, and `s` itself. -/
def upTo (s : String) : Reader Text := fun t => do
  let stretch ← t.before? Text.anyChar (Text.startsWith s.toList)
  return (stretch, t.drop (stretch.length + s.length))

/-- Nothing, at the end of the text. -/
def atEnd : Reader Unit
  | [] => some ((), [])
  | _ => none

/-- The value, if `p` accepts it. -/
def filter {α : Type} (p : α → Bool) (r : Reader α) : Reader α := do
  let a ← r
  if p a then return a else failure

/-- The value that a reader gives for the whole of a text. -/
def readAll? {α : Type} (p : Reader α) (t : Text) : Option α :=
  match p t with
  | some (a, []) => some a
  | _ => none

end Reader

end OfficeFormula
