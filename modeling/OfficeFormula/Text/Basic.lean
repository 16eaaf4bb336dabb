/-!
# Text

Running text is a list of characters, so that every scanner of this library is a recursion on a
list and every law about it an induction on one. Names (of elements, attributes and commands) stay
`String`s: they are compared and looked up, never scanned.

Besides cutting and joining, this module has literal replacement (`replaceAll`) and the search for
the shortest stretch before something (`before?`, `before₁?`).
-/

namespace OfficeFormula

/-- Running text. -/
abbrev Text := List Char

/-- Membership of a code point in a list of closed ranges. -/
def inRanges (rs : List (Nat × Nat)) (n : Nat) : Bool :=
  rs.any fun r => decide (r.1 ≤ n) && decide (n ≤ r.2)

theorem inRanges_iff {rs : List (Nat × Nat)} {n : Nat} :
    inRanges rs n = true ↔ ∃ r ∈ rs, r.1 ≤ n ∧ n ≤ r.2 := by
  simp [inRanges]

namespace Text

/-- What follows `start` in a text that begins with it. -/
def after? : (start t : Text) → Option Text
  | [], t => some t
  | _ :: _, [] => none
  | p :: ps, c :: cs => if p = c then after? ps cs else none

theorem after?_eq_some_iff {start t rest : Text} :
    after? start t = some rest ↔ t = start ++ rest := by
  induction start generalizing t with
  | nil => simp [after?]
  | cons p ps ih =>
    cases t with
    | nil => simp [after?]
    | cons c cs =>
      by_cases h : p = c
      · simp [after?, h, ih]
      · have h' : c ≠ p := fun e => h e.symm
        simp [after?, h, h']

/-- The text begins with `start`. -/
def startsWith (start t : Text) : Bool := (after? start t).isSome

theorem startsWith_iff {start t : Text} :
    startsWith start t = true ↔ ∃ rest, t = start ++ rest := by
  simp [startsWith, Option.isSome_iff_exists, after?_eq_some_iff]

/-- Some suffix of the text satisfies `p`. -/
def hasSuffix (p : Text → Bool) : Text → Bool
  | [] => p []
  | c :: cs => p (c :: cs) || hasSuffix p cs

/-- `part` occurs in the text. -/
def contains (part t : Text) : Bool := hasSuffix (startsWith part) t

/-- The shortest beginning of the text whose remainder satisfies `stop`, all of it made of
`allowed` characters. -/
def before? (allowed : Char → Bool) (stop : Text → Bool) : Text → Option Text
  | [] => if stop [] then some [] else none
  | c :: cs =>
    if stop (c :: cs) then some []
    else if allowed c then (before? allowed stop cs).map (c :: ·) else none

/-- As `before?`, but at least one character long. -/
def before₁? (allowed : Char → Bool) (stop : Text → Bool) : Text → Option Text
  | [] => none
  | c :: cs => if allowed c then (before? allowed stop cs).map (c :: ·) else none

/-- Any character may stand in the stretch. -/
def anyChar (_ : Char) : Bool := true

/-- Any character but a newline. -/
def notNewline (c : Char) : Bool := c != '\n'

theorem length_lt_of_after? {start t rest : Text} (hne : start ≠ [])
    (h : after? start t = some rest) :
    rest.length < t.length := by
  have := List.length_pos_iff.2 hne
  rw [after?_eq_some_iff.1 h, List.length_append]
  omega

/-- Every occurrence of the nonempty `part`, from the left, replaced by `new`. -/
def replaceNonempty (part new : Text) (hne : part ≠ []) (t : Text) : Text :=
  match h : after? part t with
  | some rest =>
    have := length_lt_of_after? hne h
    new ++ replaceNonempty part new hne rest
  | none =>
    match t with
    | [] => []
    | c :: cs => c :: replaceNonempty part new hne cs
termination_by t.length

/-- Every occurrence of `part`, from the left, replaced by `new`. The empty text occurs before every
character and at the end. -/
def replaceAll (part new t : Text) : Text :=
  if h : part = [] then t.flatMap (fun c => new ++ [c]) ++ new
  else replaceNonempty part new h t

/-- The stretches between the newlines; one more than there are newlines. -/
def lines : Text → List Text
  | [] => [[]]
  | c :: cs =>
    if c = '\n' then [] :: lines cs
    else match lines cs with
      | [] => [[c]]
      | l :: ls => (c :: l) :: ls

/-- The texts with `sep` between neighbours. -/
def join (sep : Text) : List Text → Text
  | [] => []
  | [t] => t
  | t :: ts => t ++ sep ++ join sep ts

theorem lines_ne_nil (t : Text) : lines t ≠ [] := by
  cases t with
  | nil => simp [lines]
  | cons c cs => simp only [lines]; split <;> (try split) <;> simp

theorem join_lines (t : Text) : join ['\n'] (lines t) = t := by
  induction t with
  | nil => rfl
  | cons c cs ih =>
    have hne := lines_ne_nil cs
    simp only [lines]
    split
    · next h =>
      obtain ⟨l, ls, hl⟩ := List.exists_cons_of_ne_nil hne
      rw [hl] at ih ⊢
      simp [join, ih, h]
    · split
      · next h => exact absurd h hne
      · next l ls hl =>
        rw [hl] at ih
        cases ls with
        | nil => simpa [join] using ih
        | cons m ms => simp only [join, List.cons_append] at ih ⊢; rw [ih]

end Text

end OfficeFormula
