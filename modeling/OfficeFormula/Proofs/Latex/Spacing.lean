import OfficeFormula.Latex.Compile
import OfficeFormula.Proofs.Latex.Lex

/-!
# Blanks between tokens

Where blanks stand between the tokens of a formula, and how many, does not matter as long as the tokens stay
apart. `Respaced` says so without a scanner: both texts are made of the same tokens, each as long as it can be.
Single spaces keep the tokens of any formula apart (`respaced_respace`). A backslash at the very end is the one
token that would take the space behind it, and no token follows it.

Broken line breaks are repaired before a formula is cut into tokens, and there a newline is not like other blanks
(`compile_ne_rowBreak`). So it is the repaired texts that may differ in blanks.
-/

namespace OfficeFormula.Latex

/-- The texts are made of the same tokens, and differ at most in the blanks around them. -/
def Respaced (s t : Text) : Prop := ∃ ts, Munches s ts ∧ Munches t ts

theorem Respaced.tokenize_eq {s t : Text} (h : Respaced s t) : tokenize t = tokenize s := by
  obtain ⟨ts, ofS, ofT⟩ := h
  rw [← ofT.eq_tokenize, ofS.eq_tokenize]

/-- A token is as long as it can be where nothing follows it. -/
theorem Fits.at_end {token : Token} {rest : Text} (fits : Fits token rest) : Fits token [] := by
  cases fits with
  | letters ne inside => exact .letters ne inside (by simp)
  | symbol other => exact .symbol other []
  | bare => exact .bare
  | whole ne inside => exact .whole ne inside (by simp) (by simp)
  | decimal ne inside ne' inside' => exact .decimal ne inside ne' inside' (by simp)
  | operator h => exact .operator h []
  | mark h => exact .mark h []
  | literal h => exact .literal h []

/-- A backslash without a name is the last token. -/
theorem Fits.named {token : Token} {rest : Text} {ts : List Token} (fits : Fits token rest)
    (more : Munches rest ts) (ne : ts ≠ []) : token ≠ .command "" := by
  intro unnamed
  cases fits with
  | letters ne' => exact ne' (Token.command.inj unnamed)
  | symbol => simpa using congrArg String.toList (Token.command.inj unnamed)
  | bare => exact ne (more.eq_tokenize.trans tokenize_nil)
  | mark h => simp [unnamed, markTokens] at h
  | whole | decimal | operator | literal => cases unnamed

/-- A text is made of the same tokens with single spaces between them. -/
theorem Munches.join {s : Text} {ts : List Token} (munches : Munches s ts) :
    Munches (Text.join [' '] (ts.map Token.text)) ts := by
  induction munches with
  | blank => exact .blank (by simp [Text.join])
  | @token _ _ token ts _ fits more ih =>
    cases ts with
    | nil => simpa [Text.join] using Munches.cons fits.at_end (.blank (by simp))
    | cons next ts =>
      have apart := fits.at_end.append_blank (fits.named more (by simp)) (Text.join [' '] ((next :: ts).map Token.text))
      have munches := Munches.cons apart (ih.cons_blank (by decide))
      simpa [Text.join] using munches

/-- What is converted, and whether the conversion breaks off, depends on the tokens alone. -/
theorem Respaced.compileNative {s t : Text} (respaced : Respaced s t) (host : Host) (source source' : Text)
    (display : Bool) :
    (compileNative host source s display = compileNative host source' t display ∧
        (compileNative host source s display).messages = []) ∨
      ∃ cause, compileNative host source s display = keepSource cause source display ∧
        compileNative host source' t display = keepSource cause source' display := by
  have markup : formulaMarkup t = formulaMarkup s := by
    rw [formulaMarkup, parse, respaced.tokenize_eq, formulaMarkup, parse]
  unfold Latex.compileNative
  rw [respaced.tokenize_eq, markup]
  cases host.latexFailure? (tokenize s) with
  | some cause => exact .inr ⟨cause, rfl, rfl⟩
  | none =>
    dsimp only
    cases formulaMarkup s with
    | ok markup => exact .inl ⟨rfl, rfl⟩
    | error e => exact .inr ⟨_, rfl, rfl⟩

end OfficeFormula.Latex
