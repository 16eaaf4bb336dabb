import OfficeFormula.Proofs.Latex.MaximalMunch

/-!
# Words of a formula

A blank ends every token before it, so that words with blanks between them can be cut into tokens one
by one (`tokenize_join`). Only a backslash at the end of a word would take the blank as its name.
-/

namespace OfficeFormula.Latex

/-! ## Numbers -/

/-- Digits, with at most one point between two of them. -/
def isNumber (t : Text) : Bool :=
  t.takeWhile isAsciiDigit ≠ [] &&
    match t.dropWhile isAsciiDigit with
    | [] => true
    | '.' :: more => more ≠ [] && more.all isAsciiDigit
    | _ => false

/-- The parts of a number. -/
theorem exists_of_isNumber {t : Text} (h : isNumber t = true) :
    ∃ c digits, isAsciiDigit c = true ∧ (∀ d ∈ digits, isAsciiDigit d = true) ∧
      (t = c :: digits ∨ ∃ more, more ≠ [] ∧ (∀ d ∈ more, isAsciiDigit d = true) ∧
        t = c :: (digits ++ '.' :: more)) := by
  simp only [isNumber, Bool.and_eq_true, decide_eq_true_eq] at h
  obtain ⟨ne, rest⟩ := h
  have parts : t = t.takeWhile isAsciiDigit ++ t.dropWhile isAsciiDigit :=
    List.takeWhile_append_dropWhile.symm
  obtain ⟨c, digits, whole⟩ := List.exists_cons_of_ne_nil ne
  have digit : ∀ d ∈ c :: digits, isAsciiDigit d = true := by
    rw [← whole]
    exact List.all_eq_true.1 List.all_takeWhile
  rw [whole] at parts
  refine ⟨c, digits, digit c List.mem_cons_self, fun d hd => digit d (List.mem_cons_of_mem _ hd), ?_⟩
  split at rest
  · next none => exact .inl (by rw [parts, none, List.append_nil])
  · next more point =>
    simp only [Bool.and_eq_true, decide_eq_true_eq, List.all_eq_true] at rest
    exact .inr ⟨more, rest.1, rest.2, by rw [parts, point, List.cons_append]⟩
  · simp at rest

theorem fits_number {t : Text} (h : isNumber t = true) : Fits (.number t) [] := by
  obtain ⟨c, digits, digit, whole, rfl | ⟨more, ne, fraction, rfl⟩⟩ := exists_of_isNumber h
  · exact .whole (by simp) (List.forall_mem_cons.2 ⟨digit, whole⟩) (by simp) (by simp)
  · exact .decimal (by simp) (List.forall_mem_cons.2 ⟨digit, whole⟩) ne fraction (by simp)

theorem tokenize_number {t : Text} (h : isNumber t = true) : tokenize t = [.number t] := by
  simpa [Token.text, tokenize_nil] using (fits_number h).tokenize_append

/-! ## Words -/

/-- A blank ends every token but a backslash, which would take it. -/
theorem Fits.append_blank {token : Token} {rest : Text} (fits : Fits token rest) (named : token ≠ .command "")
    (more : Text) : Fits token (rest ++ ' ' :: more) := by
  have head (c : Char) (h : c ∈ (rest ++ ' ' :: more).head?) : c ∈ rest.head? ∨ c = ' ' := by
    cases rest with
    | nil => exact .inr (by simpa using h.symm)
    | cons d ds => exact .inl h
  have letter : isAsciiLetter ' ' = false := by decide
  have digit : isAsciiDigit ' ' = false := by decide
  cases fits with
  | letters ne inside ends =>
    exact .letters ne inside fun c hc => (head c hc).elim (ends c) fun blank => blank ▸ letter
  | symbol other => exact .symbol other _
  | bare => exact absurd rfl named
  | whole ne inside ends point =>
    refine .whole ne inside (fun c hc => (head c hc).elim (ends c) fun blank => blank ▸ digit) ?_
    intro c after h
    match rest with
    | [] => simp at h
    | [d] => exact (List.cons.inj (List.cons.inj h).2).1 ▸ digit
    | d :: e :: rest =>
      simp only [List.cons_append, List.cons.injEq] at h
      exact point c rest (by rw [h.1, h.2.1])
  | decimal ne inside ne' inside' ends =>
    exact .decimal ne inside ne' inside' fun c hc => (head c hc).elim (ends c) fun blank => blank ▸ digit
  | operator h => exact .operator h _
  | mark h => exact .mark h _
  | literal h => exact .literal h _

/-- Texts with a blank between them are made of the tokens of both. -/
theorem Munches.append_blank {w rest : Text} {ts us : List Token} (munches : Munches w ts)
    (complete : .command "" ∉ ts) (more : Munches rest us) : Munches (w ++ ' ' :: rest) (ts ++ us) := by
  induction munches with
  | @blank gap blanks =>
    induction gap with
    | nil => exact more.cons_blank (by decide)
    | cons c cs ih =>
      rw [List.forall_mem_cons] at blanks
      exact (ih blanks.2).cons_blank blanks.1
  | token blanks fits _ ih =>
    rw [List.mem_cons, not_or] at complete
    have fits := fits.append_blank (Ne.symm complete.1) rest
    rw [List.append_assoc, List.append_assoc]
    exact .token blanks fits (ih complete.2)

/-- A blank ends the tokens of a word that does not end with a backslash of its own. -/
theorem tokenize_append_blank {w : Text} (complete : .command "" ∉ tokenize w) (rest : Text) :
    tokenize (w ++ ' ' :: rest) = tokenize w ++ tokenize rest :=
  ((munches_tokenize w).append_blank complete (munches_tokenize rest)).eq_tokenize.symm

/-- Tokens written without a blank between them. -/
abbrev Word := List Token

namespace Word

/-- How a word is written. -/
def text (w : Word) : Text := w.flatMap Token.text

/-- The tokens of a word are found again in its text, and a blank may follow. -/
structure Lexes (w : Word) : Prop where
  tokens : tokenize w.text = w
  complete : .command "" ∉ w

end Word

/-- Words with blanks between them are cut into the tokens of each. -/
theorem tokenize_join {ws : List Word} (lexes : ∀ w ∈ ws, w.Lexes) :
    tokenize (Text.join [' '] (ws.map Word.text)) = ws.flatten := by
  induction ws with
  | nil => exact tokenize_nil
  | cons w ws ih =>
    have first := lexes w List.mem_cons_self
    have ih := ih fun v hv => lexes v (List.mem_cons_of_mem _ hv)
    cases ws with
    | nil => simpa [Text.join] using first.tokens
    | cons v vs =>
      have written : Text.join [' '] ((w :: v :: vs).map Word.text) =
          w.text ++ ' ' :: Text.join [' '] ((v :: vs).map Word.text) := by
        simp [Text.join]
      rw [written, tokenize_append_blank (by rw [first.tokens]; exact first.complete), first.tokens, ih]
      rfl

end OfficeFormula.Latex
