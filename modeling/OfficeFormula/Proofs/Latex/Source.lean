import OfficeFormula.Latex.LineBreak
import OfficeFormula.Proofs.Latex.Print
import OfficeFormula.Proofs.Text.Words

/-!
# Written formulas as they come

Before a formula is cut into tokens, the blanks around it are dropped and broken line breaks are repaired.
What has been written has no blanks around it and no line breaks, and stays as it is
(`repairLineBreaks_trim_print`).
-/

namespace OfficeFormula.Latex

/-! ## Words without blanks -/

/-- Blanks are no tokens, so a character that is one is no blank. -/
theorem isBlank_of_isOrdinary {c : Char} (h : isOrdinary c = true) : isBlank c = false := by
  simp only [isOrdinary, Bool.and_eq_true, decide_eq_true_eq] at h
  cases blank : isBlank c with
  | false => rfl
  | true =>
    have token := h.2
    unfold charToken? at token
    simp only [blank, if_true] at token
    repeat' split at token
    all_goals simp at token

theorem isBlank_of_mem_operatorChars {c : Char} (h : operatorChars.contains c = true) :
    isBlank c = false := by
  have all : operatorChars.all (!isBlank ·) = true := by decide
  simpa using List.all_eq_true.1 all c (List.contains_iff_mem.1 h)

theorem isBlank_of_isNumber {t : Text} (h : isNumber t = true) : ∀ c ∈ t, isBlank c = false := by
  have point : isBlank '.' = false := by decide
  obtain ⟨c, digits, digit, whole, rfl | ⟨more, -, fraction, rfl⟩⟩ := exists_of_isNumber h
  · rw [List.forall_mem_cons]
    exact ⟨isBlank_of_isAsciiDigit digit, fun d hd => isBlank_of_isAsciiDigit (whole d hd)⟩
  · rw [List.forall_mem_cons, List.forall_mem_append, List.forall_mem_cons]
    exact ⟨isBlank_of_isAsciiDigit digit, fun d hd => isBlank_of_isAsciiDigit (whole d hd), point,
      fun d hd => isBlank_of_isAsciiDigit (fraction d hd)⟩

/-- A token that is written with something, and without blanks. -/
def Token.isSolid (token : Token) : Bool := token.text ≠ [] && token.text.all (!isBlank ·)

/-- A command has its backslash at least. -/
theorem isSolid_command {name : String} (h : ∀ c ∈ name.toList, isBlank c = false) :
    (Token.command name).isSolid = true := by
  have backslash : isBlank '\\' = false := by decide
  simpa [Token.isSolid, Token.text, backslash] using h

theorem isSolid_char {token : Token} {c : Char} (text : token.text = [c]) (visible : isBlank c = false) :
    token.isSolid = true := by
  simp [Token.isSolid, text, visible]

theorem isSolid_nameToken {c : Char} (h : isEnvironmentNameChar c = true) : (nameToken c).isSolid = true := by
  refine isSolid_char (nameToken_of_isEnvironmentNameChar h).2.2 ?_
  rw [isEnvironmentNameChar, Bool.or_eq_true] at h
  rcases h with ordinary | operator
  · exact isBlank_of_isOrdinary ordinary
  · exact isBlank_of_mem_operatorChars operator

/-- A word that is written with something, and without blanks. -/
structure Word.Solid (w : Word) : Prop where
  ne : w ≠ []
  tokens : ∀ token ∈ w, token.isSolid = true

/-- No word of the printer is empty or has a blank in it. -/
theorem covers_solid : Covers Word.Solid := by
  have one {token : Token} (h : token.isSolid = true) : Word.Solid [token] := ⟨by simp, by simpa using h⟩
  have command {name : String} (isName : IsCommandName name) : (Token.command name).isSolid = true :=
    isSolid_command fun c hc => isBlank_of_isAsciiLetter (isName.letters c hc)
  constructor
  case command =>
    intro name isName
    exact one (command isName)
  case number =>
    intro digits h
    have ne : digits ≠ [] := by
      rintro rfl
      simp [isNumber] at h
    exact one (by simpa [Token.isSolid, Token.text, ne] using isBlank_of_isNumber h)
  case operator =>
    intro c h
    exact one (isSolid_char rfl (isBlank_of_mem_operatorChars h))
  case literal =>
    intro c h
    exact one (isSolid_char rfl (isBlank_of_isOrdinary h))
  case environment =>
    intro name env isName chars
    refine ⟨by simp [nameWord], ?_⟩
    simp only [nameWord, List.forall_mem_cons, List.forall_mem_append, List.forall_mem_map]
    refine ⟨command isName, by decide, fun c hc => isSolid_nameToken (chars c hc), by decide, by simp⟩
  case columns => exact ⟨by simp, by decide⟩
  all_goals exact one (by decide)

namespace Word.Solid

theorem text_ne_nil {w : Word} (solid : w.Solid) : w.text ≠ [] := by
  obtain ⟨token, more, rfl⟩ := List.exists_cons_of_ne_nil solid.ne
  have h := solid.tokens token List.mem_cons_self
  simp only [Token.isSolid, Bool.and_eq_true, decide_eq_true_eq] at h
  rw [Word.text, List.flatMap_cons]
  exact List.append_ne_nil_of_left_ne_nil h.1 _

theorem isBlank_of_mem {w : Word} (solid : w.Solid) : ∀ c ∈ w.text, isBlank c = false := by
  intro c hc
  obtain ⟨token, mem, hc⟩ := List.mem_flatMap.1 hc
  have h := solid.tokens token mem
  simp only [Token.isSolid, Bool.and_eq_true, List.all_eq_true, Bool.not_eq_true'] at h
  exact h.2 c hc

end Word.Solid

/-! ## Line breaks -/

theorem afterLineEnd?_eq_none {t : Text} (h : '\n' ∉ t) : Text.afterLineEnd? t = none := by
  unfold Text.afterLineEnd?
  split
  · next rest found =>
    have mem : '\n' ∈ t.dropWhile isTabOrSpace := by
      rw [found]
      exact List.mem_cons_self
    exact absurd ((List.dropWhile_suffix _).subset mem) h
  · rfl

/-- A repair is made at the end of a line only. -/
theorem repairAfter_eq_self (previous : Option Char) {t : Text} (h : '\n' ∉ t) :
    repairAfter previous t = t := by
  induction t generalizing previous with
  | nil => rw [repairAfter]
  | cons c cs ih =>
    have later : '\n' ∉ cs := fun mem => h (List.mem_cons_of_mem c mem)
    have none := afterLineEnd?_eq_none later
    rw [repairAfter]
    split
    · split
      · next found => simp [none] at found
      · rw [ih (some c) later]
    · rw [ih (some c) later]

/-- What has been written is read as it is. -/
theorem repairLineBreaks_trim_print {items : List Expr} (h : allCanonical items = true) :
    repairLineBreaks (Nucleus.root items).plain.print.trim = (Nucleus.root items).plain.print := by
  have words : (Nucleus.root items).plain.words = wordsAll items := by
    simp [Nucleus.plain, Expr.words, Nucleus.words, scriptWords]
  have solid : ∀ w ∈ wordsAll items, w.Solid :=
    forall_wordsAll (forall_items (inherited_words covers_solid) items h)
  have visible : ∀ t ∈ (wordsAll items).map Word.text, ∀ c ∈ t, isBlank c = false := by
    rw [List.forall_mem_map]
    exact fun w hw => (solid w hw).isBlank_of_mem
  rw [Expr.print, words, Text.trim_join _ visible]
  · apply repairAfter_eq_self
    intro newline
    rcases Text.mem_join newline with blank | ⟨t, ht, mem⟩
    · simp at blank
    · exact absurd (visible t ht '\n' mem) (by decide)
  · rw [List.forall_mem_map]
    exact fun w hw => (solid w hw).text_ne_nil

end OfficeFormula.Latex
