import OfficeFormula.Text.Basic

/-!
# Scanning for marked stretches

A recogniser looks at a place in a text, with the character before it, and says whether a marked
stretch begins there, how long it is and what it holds. `segments` cuts a text, from the left, into
the stretches that a recogniser finds and the single characters between them. The sources of the
segments make up the text again (`flatMap_source_segments`), whatever the recogniser answers.
-/

namespace OfficeFormula.Span

/-- A stretch that begins at the place looked at. -/
structure Hit where
  /-- How many characters it takes; one at least is taken. -/
  length : Nat
  content : Text

/-- Looks at a place in a text: the character before it, and the text from there on. -/
abbrev Recogniser := (previous : Option Char) → Text → Option Hit

inductive Segment where
  | plain (c : Char)
  | found (source content : Text)
deriving DecidableEq

/-- The text that a segment was cut from. -/
def Segment.source : Segment → Text
  | plain c => [c]
  | found source _ => source

/-- The segments of a text that `previous` stands before. -/
def segmentsAfter (find : Recogniser) (previous : Option Char) : Text → List Segment
  | [] => []
  | c :: cs =>
    match find previous (c :: cs) with
    | none => .plain c :: segmentsAfter find (some c) cs
    | some hit =>
      let source := c :: cs.take (hit.length - 1)
      .found source hit.content :: segmentsAfter find source.getLast? (cs.drop (hit.length - 1))
termination_by t => t.length
decreasing_by all_goals simp; try omega

/-- The segments of a text. -/
def segments (find : Recogniser) (t : Text) : List Segment := segmentsAfter find none t

theorem flatMap_source_segmentsAfter (find : Recogniser) (previous : Option Char) (t : Text) :
    (segmentsAfter find previous t).flatMap Segment.source = t := by
  fun_induction segmentsAfter find previous t with
  | case1 => rfl
  | case2 previous c cs h ih => simp [Segment.source, ih]
  | case3 previous c cs hit h source ih => simp [Segment.source, ih, source]

/-- Cutting a text into segments loses nothing. -/
theorem flatMap_source_segments (find : Recogniser) (t : Text) :
    (segments find t).flatMap Segment.source = t :=
  flatMap_source_segmentsAfter find none t

/-- The text with each found stretch replaced by what `f` makes of it, a state going along from
left to right. -/
def substitute {σ : Type} (f : σ → (source content : Text) → σ × Text) :
    σ → List Segment → σ × Text
  | s, [] => (s, [])
  | s, .plain c :: rest =>
    let (s', t) := substitute f s rest
    (s', c :: t)
  | s, .found source content :: rest =>
    let (s', t) := f s source content
    let (s'', t') := substitute f s' rest
    (s'', t ++ t')

/-- The text with each stretch that a recogniser finds replaced by its content. -/
def replaceFound (find : Recogniser) (t : Text) : Text :=
  (segments find t).flatMap fun
    | .plain c => [c]
    | .found _ content => content

/-- A place at the beginning of a line. -/
def atLineStart (previous : Option Char) : Bool := previous = none || previous = some '\n'

/-- A place at the end of a line. -/
def atLineEnd (t : Text) : Bool := t.head? = none || t.head? = some '\n'

/-- Some place of the text that comes after `previous` satisfies `p`. -/
def anywhere (p : (previous : Option Char) → Text → Bool) (previous : Option Char) : Text → Bool
  | [] => p previous []
  | c :: cs => p previous (c :: cs) || anywhere p (some c) cs

end OfficeFormula.Span
