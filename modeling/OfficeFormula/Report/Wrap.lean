import OfficeFormula.Text.Basic

/-!
# Lines cut to a width

`wrap` cuts a text into numbered pieces of at most a given width. A line that is too long goes on in
further pieces under the same number. A newline that ends the text begins no further line.

At a width of zero or less there is no room for a character: the answer is then `none`, unless
nothing has to be cut.
-/

namespace OfficeFormula.Report

/-- A piece of a line. -/
structure Piece where
  lineNumber : Nat
  /-- Whether the piece is the first of its line. -/
  startOfLine : Bool
  text : Text
deriving DecidableEq, Repr

/-- The part before the first newline, if that newline is within the first `width` characters or
just after them, and what follows the newline. -/
def shortLine? (width : Int) (t : Text) : Option (Text × Text) :=
  let line := t.takeWhile (· ≠ '\n')
  if (line.length : Int) ≤ width then
    match t.drop line.length with
    | [] => none
    | _ :: rest => some (line, rest)
  else none

theorem length_lt_of_shortLine? {width : Int} {t line rest : Text}
    (h : shortLine? width t = some (line, rest)) : rest.length < t.length := by
  unfold shortLine? at h
  simp only at h
  split at h
  · split at h
    · simp at h
    · next heq =>
      have := congrArg List.length heq
      simp only [Option.some.injEq, Prod.mk.injEq] at h
      obtain ⟨_, rfl⟩ := h
      simp only [List.length_drop, List.length_cons] at this
      omega
  · simp at h

/-- The pieces of a text that begins on line `n`, at its start or not. -/
def wrapFrom (width : Int) (n : Nat) (start : Bool) (t : Text) : Option (List Piece) :=
  if ht : t = [] then some []
  else
    match h : shortLine? width t with
    | some (line, rest) =>
      have := length_lt_of_shortLine? h
      (wrapFrom width (n + 1) true rest).map (⟨n, start, line⟩ :: ·)
    | none =>
      if hw : 0 < width then
        have : (t.drop width.toNat).length < t.length := by
          have := List.length_pos_iff.2 ht
          simp only [List.length_drop]
          omega
        (wrapFrom width n false (t.drop width.toNat)).map (⟨n, start, t.take width.toNat⟩ :: ·)
      else none
termination_by t.length

/-- The pieces of a text; an empty text has one, which is empty. -/
def wrap (width : Int) (t : Text) : Option (List Piece) :=
  if t = [] then some [⟨1, true, []⟩] else wrapFrom width 1 true t

end OfficeFormula.Report
