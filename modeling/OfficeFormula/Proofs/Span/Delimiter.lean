import OfficeFormula.Proofs.Span.Restore

/-!
# Delimiters of formulas

The eight written forms of a formula, as the texts that open and close them (`Delimits`). Each
recogniser of a form finds what stands between such texts, and what it gives as the content is that
without the blanks around it (`FindsForm`). No delimiter has a digit, so that in a working text a
delimiter is made up of characters, and all placeholders of a found stretch are in its content
(`Holds.exists_content`).
-/

namespace OfficeFormula

namespace Text

theorem exists_of_before? {allowed : Char → Bool} {stop : Text → Bool} {t u : Text}
    (h : before? allowed stop t = some u) : ∃ rest, t = u ++ rest ∧ stop rest = true := by
  induction t generalizing u with
  | nil =>
    simp only [before?] at h
    split at h
    · next stops => exact ⟨[], by simpa using h, stops⟩
    · simp at h
  | cons c cs ih =>
    simp only [before?] at h
    split at h
    · next stops => exact ⟨c :: cs, by simpa using h, stops⟩
    · split at h
      · obtain ⟨v, hv, rfl⟩ := Option.map_eq_some_iff.1 h
        obtain ⟨rest, rfl, stops⟩ := ih hv
        exact ⟨rest, rfl, stops⟩
      · simp at h

theorem exists_of_before₁? {allowed : Char → Bool} {stop : Text → Bool} {t u : Text}
    (h : before₁? allowed stop t = some u) : ∃ rest, t = u ++ rest ∧ stop rest = true := by
  cases t with
  | nil => simp [before₁?] at h
  | cons c cs =>
    simp only [before₁?] at h
    split at h
    · obtain ⟨v, hv, rfl⟩ := Option.map_eq_some_iff.1 h
      obtain ⟨rest, rfl, stops⟩ := exists_of_before? hv
      exact ⟨rest, rfl, stops⟩
    · simp at h

theorem exists_of_afterLineEnd? {t rest : Text} (h : afterLineEnd? t = some rest) :
    ∃ blanks, t = blanks ++ '\n' :: rest ∧ ∀ c ∈ blanks, isTabOrSpace c = true := by
  unfold afterLineEnd? at h
  split at h
  · next more heq =>
    rw [Option.some.injEq] at h
    refine ⟨t.takeWhile isTabOrSpace, ?_, List.all_eq_true.1 List.all_takeWhile⟩
    rw [← h, ← heq, List.takeWhile_append_dropWhile]
  · simp at h

/-- Trimming takes blanks off both ends. -/
theorem exists_trim_eq (t : Text) :
    ∃ before after, t = before ++ t.trim ++ after ∧ (∀ c ∈ before, isBlank c = true) ∧
      ∀ c ∈ after, isBlank c = true := by
  refine ⟨t.takeWhile isBlank, (t.trimStart.reverse.takeWhile isBlank).reverse, ?_,
    List.all_eq_true.1 List.all_takeWhile,
    fun c hc => List.all_eq_true.1 List.all_takeWhile c (List.mem_reverse.1 hc)⟩
  rw [trim, trimEnd, List.append_assoc, ← List.reverse_append, List.takeWhile_append_dropWhile,
    List.reverse_reverse, trimStart, List.takeWhile_append_dropWhile]

end Text

namespace Span

/-- The written forms of a formula: the texts that open and close a formula of a kind. -/
inductive Delimits : Kind → (opening closing : Text) → Prop where
  /-- Rendered markup between two comments. -/
  | markup : Delimits .rendered renderedStart renderedEnd
  /-- Brackets on lines of their own. -/
  | lines {b b' : Text} (opening : ∀ c ∈ b, isTabOrSpace c = true)
      (closing : ∀ c ∈ b', isTabOrSpace c = true) :
      Delimits .block ('[' :: b ++ ['\n']) ('\n' :: b' ++ [']'])
  /-- A named environment. -/
  | environment {name : Text} (ne : name ≠ []) (chars : ∀ c ∈ name, isEnvironmentChar c = true) :
      Delimits .block (beginText name) (endText name)
  | displayBracket : Delimits .block displayOpen displayClose
  | displayDollar : Delimits .block doubleDollar doubleDollar
  | inlineParenthesis : Delimits .inline inlineOpen inlineClose
  | inlineDollar : Delimits .inline ['$'] ['$']
  /-- Plain parentheses around something that looks like a formula. -/
  | parentheses : Delimits .inline ['('] [')']

/-- A text that can delimit a formula: it begins and ends with a mark and has no digit. -/
structure IsDelimiter (t : Text) : Prop where
  bounded : Bounded t
  plain : ∀ c ∈ t, isAsciiDigit c = false

theorem isDelimiter_of_forall {c d : Char} (middle : Text) (first : isMark c = true)
    (last : isMark d = true) (plain : ∀ e ∈ middle, isAsciiDigit e = false) :
    IsDelimiter (c :: middle ++ [d]) := by
  refine ⟨⟨⟨c, middle ++ [d], by simp, first⟩, ⟨c :: middle, d, rfl, last⟩⟩, ?_⟩
  intro e he
  simp only [List.cons_append, List.mem_cons, List.mem_append, List.not_mem_nil, or_false] at he
  rcases he with rfl | he | rfl
  · exact isAsciiDigit_eq_false_of_isMark first
  · exact plain e he
  · exact isAsciiDigit_eq_false_of_isMark last

theorem isDelimiter_pair {c d : Char} (first : isMark c = true) (last : isMark d = true) :
    IsDelimiter [c, d] :=
  isDelimiter_of_forall [] first last (by simp)

theorem isDelimiter_singleton {c : Char} (mark : isMark c = true) : IsDelimiter [c] := by
  refine ⟨⟨⟨c, [], rfl, mark⟩, ⟨[], c, rfl, mark⟩⟩, ?_⟩
  intro d hd
  rw [List.mem_singleton.1 hd]
  exact isAsciiDigit_eq_false_of_isMark mark

theorem isAsciiDigit_eq_false_of_isEnvironmentChar {c : Char} (h : isEnvironmentChar c = true) :
    isAsciiDigit c = false := by
  simp only [isEnvironmentChar, isAsciiLetter, Bool.or_eq_true, Bool.and_eq_true, decide_eq_true_eq,
    Char.le_def, UInt32.le_iff_toNat_le] at h
  simp only [isAsciiDigit, Bool.and_eq_false_iff, decide_eq_false_iff_not, Char.le_def,
    UInt32.le_iff_toNat_le]
  rcases h with (⟨low, _⟩ | ⟨low, _⟩) | rfl
  · change 97 ≤ c.val.toNat at low
    right
    change ¬c.val.toNat ≤ 57
    omega
  · change 65 ≤ c.val.toNat at low
    right
    change ¬c.val.toNat ≤ 57
    omega
  · decide

theorem isDelimiter_command {name : Text} (letters : Text)
    (plain : ∀ c ∈ letters, isAsciiDigit c = false)
    (chars : ∀ c ∈ name, isEnvironmentChar c = true) :
    IsDelimiter ('\\' :: letters ++ name ++ ['}']) := by
  rw [List.cons_append]
  apply isDelimiter_of_forall (letters ++ name) (by decide) (by decide)
  intro c hc
  rcases List.mem_append.1 hc with hc | hc
  · exact plain c hc
  · exact isAsciiDigit_eq_false_of_isEnvironmentChar (chars c hc)

/-- Both ends of a formula are delimiters. -/
theorem Delimits.isDelimiter {kind : Kind} {opening closing : Text}
    (delimits : Delimits kind opening closing) : IsDelimiter opening ∧ IsDelimiter closing := by
  have blanks {b : Text} (tabs : ∀ c ∈ b, isTabOrSpace c = true) :
      ∀ c ∈ b, isAsciiDigit c = false :=
    fun c hc => isAsciiDigit_eq_false_of_isMark (isMark_of_isTabOrSpace (tabs c hc))
  cases delimits with
  | markup =>
    exact ⟨isDelimiter_of_forall "!--RENDERED_MATH_START--".toList (by decide) (by decide)
        (forall_not_of_all (by decide)),
      isDelimiter_of_forall "!--RENDERED_MATH_END--".toList (by decide) (by decide)
        (forall_not_of_all (by decide))⟩
  | lines opening closing =>
    exact ⟨isDelimiter_of_forall _ (by decide) (by decide) (blanks opening),
      isDelimiter_of_forall _ (by decide) (by decide) (blanks closing)⟩
  | environment ne chars =>
    exact ⟨isDelimiter_command "begin\x7b".toList (forall_not_of_all (by decide)) chars,
      isDelimiter_command "end\x7b".toList (forall_not_of_all (by decide)) chars⟩
  | displayBracket =>
    exact ⟨isDelimiter_pair (by decide) (by decide), isDelimiter_pair (by decide) (by decide)⟩
  | displayDollar =>
    exact ⟨isDelimiter_pair (by decide) (by decide), isDelimiter_pair (by decide) (by decide)⟩
  | inlineParenthesis =>
    exact ⟨isDelimiter_pair (by decide) (by decide), isDelimiter_pair (by decide) (by decide)⟩
  | inlineDollar => exact ⟨isDelimiter_singleton (by decide), isDelimiter_singleton (by decide)⟩
  | parentheses => exact ⟨isDelimiter_singleton (by decide), isDelimiter_singleton (by decide)⟩

/-! ## What the recognisers find -/

/-- `content` is what stands between the delimiters, without the blanks around it; an environment
keeps its delimiters, on lines of their own. -/
structure Holds (opening body closing content : Text) : Prop where
  parts : ∃ before inner after lead trail, body = before ++ inner ++ after ∧
    content = lead ++ inner ++ trail ∧ (∀ c ∈ before, isBlank c = true) ∧
    (∀ c ∈ after, isBlank c = true) ∧
    (lead = [] ∧ trail = [] ∨ lead = opening ++ ['\n'] ∧ trail = '\n' :: closing)

theorem holds_self (opening body closing : Text) : Holds opening body closing body :=
  ⟨[], body, [], [], [], by simp, by simp, by simp, by simp, .inl ⟨rfl, rfl⟩⟩

theorem holds_trim (opening body closing : Text) : Holds opening body closing body.trim := by
  obtain ⟨before, after, text, blank, blank'⟩ := Text.exists_trim_eq body
  exact ⟨before, body.trim, after, [], [], text, by simp, blank, blank', .inl ⟨rfl, rfl⟩⟩

/-- Blanks before the content are not part of it. -/
theorem Holds.blanks_append {opening body closing content blanks : Text}
    (holds : Holds opening body closing content) (blank : ∀ c ∈ blanks, isBlank c = true) :
    Holds opening (blanks ++ body) closing content := by
  obtain ⟨before, inner, after, lead, trail, rfl, rfl, blank', blank'', ends⟩ := holds.parts
  refine ⟨blanks ++ before, inner, after, lead, trail, by simp, rfl, ?_, blank'', ends⟩
  intro c hc
  rcases List.mem_append.1 hc with hc | hc
  · exact blank c hc
  · exact blank' c hc

/-- The text begins with a formula of this kind, and `hit` tells its length and content. -/
def FoundForm (kind : Kind) (t : Text) (hit : Hit) : Prop :=
  ∃ opening body closing rest, Delimits kind opening closing ∧
    t = opening ++ body ++ closing ++ rest ∧ hit.length = (opening ++ body ++ closing).length ∧
    Holds opening body closing hit.content

/-- The recogniser finds formulas of this kind only. -/
def FindsForm (find : Recogniser) (kind : Kind) : Prop :=
  ∀ previous t hit, find previous t = some hit → FoundForm kind t hit

theorem Delimits.bounded {kind : Kind} {opening closing : Text}
    (delimits : Delimits kind opening closing) (body : Text) : Bounded (opening ++ body ++ closing) := by
  constructor
  · obtain ⟨c, r, rfl, mark⟩ := delimits.isDelimiter.1.bounded.first
    exact ⟨c, r ++ body ++ closing, by simp, mark⟩
  · obtain ⟨r, c, rfl, mark⟩ := delimits.isDelimiter.2.bounded.last
    exact ⟨opening ++ body ++ r, c, by simp, mark⟩

/-- What has the form of a formula has marks at both ends. -/
theorem FindsForm.bounded {find : Recogniser} {kind : Kind} (finds : FindsForm find kind) :
    FindsBounded find := by
  intro previous t hit h
  obtain ⟨opening, body, closing, rest, delimits, text, length, _⟩ := finds previous t hit h
  exact ⟨opening ++ body ++ closing, rest, text, length, delimits.bounded body⟩

/-- The content of rendered markup is all that stands between its two comments. -/
theorem exists_of_renderedMarkup {previous : Option Char} {t : Text} {hit : Hit}
    (h : renderedMarkup previous t = some hit) :
    ∃ rest, t = renderedStart ++ hit.content ++ renderedEnd ++ rest ∧
      hit.length = (renderedStart ++ hit.content ++ renderedEnd).length := by
  simp only [renderedMarkup, Option.bind_eq_bind, Option.bind_eq_some_iff, Option.pure_def,
    Option.some.injEq] at h
  obtain ⟨body, hopen, content, hbefore, rfl⟩ := h
  obtain rfl := Text.after?_eq_some_iff.1 hopen
  obtain ⟨rest, rfl, stops⟩ := Text.exists_of_before? hbefore
  obtain ⟨rest, rfl⟩ := Text.startsWith_iff.1 stops
  exact ⟨rest, by simp, by simp only [List.length_append]⟩

theorem findsForm_renderedMarkup : FindsForm renderedMarkup .rendered := by
  intro _ t hit h
  obtain ⟨rest, text, length⟩ := exists_of_renderedMarkup h
  exact ⟨_, hit.content, _, rest, .markup, text, length, holds_self _ _ _⟩

theorem exists_of_afterClosingBracket? {t rest : Text} (h : afterClosingBracket? t = some rest) :
    ∃ blanks, t = '\n' :: blanks ++ [']'] ++ rest ∧ ∀ c ∈ blanks, isTabOrSpace c = true := by
  simp only [afterClosingBracket?, Option.bind_eq_bind, Option.bind_eq_some_iff] at h
  obtain ⟨line, hline, after, hafter, h⟩ := h
  obtain rfl := Text.after?_eq_some_iff.1 hline
  have closing := Text.after?_eq_some_iff.1 hafter
  split at h
  · rw [Option.some.injEq] at h
    subst h
    refine ⟨line.takeWhile isTabOrSpace, ?_, List.all_eq_true.1 List.all_takeWhile⟩
    have line_eq := (List.takeWhile_append_dropWhile (p := isTabOrSpace) (l := line)).symm
    rw [closing] at line_eq
    simpa using line_eq
  · simp at h

/-- Brackets on lines of their own; their content keeps its blanks. -/
theorem exists_of_bracketBlock {previous : Option Char} {t : Text} {hit : Hit}
    (h : bracketBlock previous t = some hit) :
    ∃ opening closing rest, Delimits .block opening closing ∧
      t = opening ++ hit.content ++ closing ++ rest ∧
      hit.length = (opening ++ hit.content ++ closing).length := by
  simp only [bracketBlock] at h
  split at h
  · simp only [Option.bind_eq_bind, Option.bind_eq_some_iff, Option.pure_def,
      Option.some.injEq] at h
    obtain ⟨line, hline, body, hbody, content, hbefore, rest, hrest, rfl⟩ := h
    obtain rfl := Text.after?_eq_some_iff.1 hline
    obtain ⟨b, rfl, tabs⟩ := Text.exists_of_afterLineEnd? hbody
    obtain ⟨stopped, rfl, _⟩ := Text.exists_of_before₁? hbefore
    rw [List.drop_left] at hrest
    obtain ⟨b', rfl, tabs'⟩ := exists_of_afterClosingBracket? hrest
    refine ⟨_, _, rest, .lines tabs tabs', by simp, ?_⟩
    simp only [List.length_append, List.length_cons, List.length_nil]
    omega
  · simp at h

theorem findsBounded_bracketBlock : FindsBounded bracketBlock := by
  intro previous t hit h
  obtain ⟨opening, closing, rest, delimits, text, length⟩ := exists_of_bracketBlock h
  exact ⟨_, rest, text, length, delimits.bounded hit.content⟩

/-- An environment is found from its beginning through its end. -/
theorem findsForm_environment : FindsForm environment .block := by
  intro _ t hit h
  simp only [environment, Option.bind_eq_bind, Option.bind_eq_some_iff] at h
  obtain ⟨named, hopen, h⟩ := h
  split at h
  · simp at h
  · next ne =>
    simp only [Option.bind_eq_some_iff, Option.pure_def, Option.some.injEq] at h
    obtain ⟨body, hclose, content, hbefore, rfl⟩ := h
    obtain rfl := Text.after?_eq_some_iff.1 hopen
    have named_eq := Text.after?_eq_some_iff.1 hclose
    obtain ⟨rest, rfl, stops⟩ := Text.exists_of_before₁? hbefore
    obtain ⟨rest, rfl⟩ := Text.startsWith_iff.1 stops
    have chars : ∀ c ∈ named.takeWhile isEnvironmentChar, isEnvironmentChar c = true :=
      List.all_eq_true.1 List.all_takeWhile
    have split := Text.eq_takeWhile_append_drop isEnvironmentChar named
    rw [named_eq] at split
    generalize named.takeWhile isEnvironmentChar = name at *
    refine ⟨_, content, _, rest, .environment ne chars, ?_, by simp only [List.length_append], ?_⟩
    · subst split
      unfold beginText
      simp only [List.append_assoc]
    · obtain ⟨before, after, text, blank, blank'⟩ := Text.exists_trim_eq content
      exact ⟨before, content.trim, after, _, _, text, by simp, blank, blank', .inr ⟨rfl, rfl⟩⟩

theorem findsForm_displayBracket : FindsForm displayBracket .block := by
  intro _ t hit h
  simp only [displayBracket, Option.bind_eq_bind, Option.bind_eq_some_iff] at h
  obtain ⟨body, hopen, h⟩ := h
  obtain rfl := Text.after?_eq_some_iff.1 hopen
  have blank : ∀ c ∈ body.takeWhile isBlank, isBlank c = true :=
    List.all_eq_true.1 List.all_takeWhile
  have body_eq := (List.takeWhile_append_dropWhile (p := isBlank) (l := body)).symm
  split at h
  · next content hbefore =>
    simp only [Option.pure_def, Option.some.injEq] at h
    obtain ⟨rest, inner_eq, stops⟩ := Text.exists_of_before₁? hbefore
    obtain ⟨rest, rfl⟩ := Text.startsWith_iff.1 stops
    rw [inner_eq] at body_eq
    subst h
    refine ⟨_, body.takeWhile isBlank ++ content, _, rest, .displayBracket, ?_, by simp; omega,
      (holds_trim _ content _).blanks_append blank⟩
    conv =>
      lhs
      rw [body_eq]
    simp
  · split at h
    · next closes =>
      simp only [Bool.and_eq_true] at closes
      obtain ⟨rest, inner_eq⟩ := Text.startsWith_iff.1 closes.2
      rw [inner_eq] at body_eq
      rw [Option.some.injEq] at h
      subst h
      refine ⟨_, body.takeWhile isBlank ++ [], _, rest, .displayBracket, ?_, by simp; omega,
        (holds_self _ [] _).blanks_append blank⟩
      conv =>
        lhs
        rw [body_eq]
      simp
    · simp at h

theorem findsForm_displayDollar : FindsForm displayDollar .block := by
  intro _ t hit h
  simp only [displayDollar, Option.bind_eq_bind, Option.bind_eq_some_iff, Option.pure_def,
    Option.some.injEq] at h
  obtain ⟨body, hopen, content, hbefore, rfl⟩ := h
  obtain rfl := Text.after?_eq_some_iff.1 hopen
  obtain ⟨rest, rfl, stops⟩ := Text.exists_of_before₁? hbefore
  obtain ⟨rest, rfl⟩ := Text.startsWith_iff.1 stops
  exact ⟨_, content, _, rest, .displayDollar, by simp, by simp only [List.length_append],
    holds_trim _ _ _⟩

theorem findsForm_inlineParenthesis : FindsForm inlineParenthesis .inline := by
  intro _ t hit h
  simp only [inlineParenthesis, Option.bind_eq_bind, Option.bind_eq_some_iff, Option.pure_def,
    Option.some.injEq] at h
  obtain ⟨body, hopen, content, hbefore, rfl⟩ := h
  obtain rfl := Text.after?_eq_some_iff.1 hopen
  obtain ⟨rest, rfl, stops⟩ := Text.exists_of_before₁? hbefore
  obtain ⟨rest, rfl⟩ := Text.startsWith_iff.1 stops
  exact ⟨_, content, _, rest, .inlineParenthesis, by simp, by simp only [List.length_append],
    holds_trim _ _ _⟩

theorem exists_of_beforeDollar? {previous : Char} {t u : Text} (h : beforeDollar? previous t = some u) :
    ∃ rest, t = u ++ '$' :: rest := by
  induction t generalizing previous u with
  | nil => simp [beforeDollar?] at h
  | cons c cs ih =>
    simp only [beforeDollar?] at h
    split at h
    · next dollar => exact ⟨cs, by simp_all⟩
    · split at h
      · simp at h
      · obtain ⟨v, hv, rfl⟩ := Option.map_eq_some_iff.1 h
        obtain ⟨rest, rfl⟩ := ih hv
        exact ⟨rest, rfl⟩

theorem findsForm_inlineDollar : FindsForm inlineDollar .inline := by
  intro previous t hit h
  simp only [inlineDollar] at h
  split at h
  · simp at h
  · simp only [Option.bind_eq_bind, Option.bind_eq_some_iff] at h
    obtain ⟨body, hopen, content, hbefore, h⟩ := h
    obtain rfl := Text.after?_eq_some_iff.1 hopen
    obtain ⟨rest, rfl⟩ := exists_of_beforeDollar? hbefore
    split at h
    · simp at h
    · rw [Option.some.injEq] at h
      subst h
      exact ⟨_, content, _, rest, .inlineDollar, by simp, by simp, holds_trim _ _ _⟩

/-! ## Delimiters in a working text -/

/-- A delimiter at the head of a spelling is made up of characters. -/
theorem IsDelimiter.exists_of_spell_eq {ps : List Piece} {t rest : Text} (delimiter : IsDelimiter t)
    (h : spell ps = t ++ rest) : ∃ rs, ps = t.map .char ++ rs ∧ spell rs = rest := by
  obtain ⟨ms, rs, rfl, spelled, rfl⟩ := exists_of_spell_eq_bounded delimiter.bounded h
  rw [eq_map_char_of_spell delimiter.plain spelled]
  exact ⟨rs, rfl, rfl⟩

/-- A delimiter anywhere in a spelling is made up of characters. -/
theorem IsDelimiter.exists_of_spell_append {ps : List Piece} {a t rest : Text}
    (delimiter : IsDelimiter t) (h : spell ps = a ++ (t ++ rest)) :
    ∃ qs rs, ps = qs ++ (t.map .char ++ rs) ∧ spell qs = a ∧ spell rs = rest := by
  obtain ⟨c, r, rfl, mark⟩ := delimiter.bounded.first
  obtain ⟨us, vs, rfl, rfl, hvs⟩ := exists_of_spell_eq_append_mark mark h
  have spelled : spell (.char c :: vs) = c :: r ++ rest := by simp [Piece.text, hvs]
  obtain ⟨rs, hrs, rfl⟩ := delimiter.exists_of_spell_eq spelled
  exact ⟨us, rs, by rw [hrs], rfl, rfl⟩

/-- The pieces of a delimited stretch. -/
theorem Delimits.exists_pieces {kind : Kind} {opening body closing rest : Text}
    (delimits : Delimits kind opening closing) {ps : List Piece}
    (h : spell ps = opening ++ body ++ closing ++ rest) :
    ∃ bs rs, ps = opening.map .char ++ bs ++ closing.map .char ++ rs ∧ spell bs = body ∧
      spell rs = rest := by
  obtain ⟨opens, closes⟩ := delimits.isDelimiter
  have spelled : spell ps = opening ++ (body ++ (closing ++ rest)) := by simpa using h
  obtain ⟨qs, rfl, hqs⟩ := opens.exists_of_spell_eq spelled
  obtain ⟨bs, rs, rfl, rfl, rfl⟩ := closes.exists_of_spell_append hqs
  exact ⟨bs, rs, by simp, rfl, rfl⟩

/-- A formula by itself is made up of its delimiters and the pieces between them. -/
theorem Delimits.exists_pieces_of_eq {kind : Kind} {opening body closing : Text}
    (delimits : Delimits kind opening closing) {ms : List Piece}
    (h : spell ms = opening ++ body ++ closing) :
    ∃ bs, ms = opening.map .char ++ bs ++ closing.map .char ∧ spell bs = body := by
  have spelled : spell ms = opening ++ body ++ closing ++ [] := by rw [h, List.append_nil]
  obtain ⟨bs, rs, rfl, rfl, nothing⟩ := delimits.exists_pieces spelled
  cases rs with
  | nil => exact ⟨bs, by simp, rfl⟩
  | cons r rs => simp [Piece.text_ne_nil r] at nothing

/-- Blanks around a stretch of a spelling are characters. -/
theorem exists_of_spell_eq_blanks {ps : List Piece} {before inner after : Text}
    (blank : ∀ c ∈ before, isBlank c = true) (blank' : ∀ c ∈ after, isBlank c = true)
    (h : spell ps = before ++ inner ++ after) :
    ∃ is, ps = before.map .char ++ is ++ after.map .char ∧ spell is = inner := by
  have letter : isBlank 'M' = false := by decide
  have plain : 'M' ∉ before := fun hm => by simp [blank _ hm] at letter
  obtain ⟨qs, rfl, hqs⟩ := exists_of_spell_eq_append plain (by simpa using h)
  cases after with
  | nil => exact ⟨qs, by simp, by simpa using hqs⟩
  | cons c cs =>
    have mark := isMark_of_isBlank (blank' c List.mem_cons_self)
    obtain ⟨is, vs, rfl, rfl, hvs⟩ := exists_of_spell_eq_append_mark mark hqs
    have digits : ∀ d ∈ cs, isAsciiDigit d = false := fun d hd =>
      isAsciiDigit_eq_false_of_isMark (isMark_of_isBlank (blank' d (List.mem_cons_of_mem _ hd)))
    rw [eq_map_char_of_spell digits hvs]
    exact ⟨is, by simp, rfl⟩

/-- The content of a delimited stretch has the placeholders of the stretch, and makes up no word that the
stretch does not. -/
theorem Holds.exists_content {opening closing content : Text} {bs : List Piece}
    (holds : Holds opening (spell bs) closing content) :
    ∃ cs, content = spell cs ∧ spanNumbers cs = spanNumbers bs ∧
      ∀ w : Text, (∀ c ∈ w, isMark c = false) →
        Avoids w (opening.map .char ++ bs ++ closing.map .char) → Avoids w cs := by
  obtain ⟨before, inner, after, lead, trail, body, rfl, blank, blank', ends⟩ := holds.parts
  obtain ⟨is, rfl, rfl⟩ := exists_of_spell_eq_blanks blank blank' body
  have numbers : spanNumbers is =
      spanNumbers (before.map .char ++ is ++ after.map .char) := by simp
  have middle {w : Text} (avoids : Avoids w
      (opening.map .char ++ (before.map .char ++ is ++ after.map .char) ++ closing.map .char)) : Avoids w is :=
    avoids.mono ⟨opening.map .char ++ before.map .char, after.map .char ++ closing.map .char, by simp⟩
  rcases ends with ⟨rfl, rfl⟩ | ⟨rfl, rfl⟩
  · exact ⟨is, by simp, numbers, fun w _ => middle⟩
  · refine ⟨opening.map .char ++ .char '\n' :: (is ++ .char '\n' :: closing.map .char), ?_, ?_, ?_⟩
    · simp [Piece.text]
    · simp
    · intro w plain avoids
      have newline := char_not_mem_map plain (c := '\n') (by decide)
      rw [avoids_append_cons newline, avoids_append_cons newline]
      exact ⟨avoids.mono ⟨[], _, by simp; rfl⟩, middle avoids,
        avoids.mono ⟨opening.map .char ++ (before.map .char ++ is ++ after.map .char), [], by simp⟩⟩

theorem Holds.exists_pieces {opening closing content : Text} {bs : List Piece}
    (holds : Holds opening (spell bs) closing content)
    (clean : Clean (opening.map .char ++ bs ++ closing.map .char)) :
    ∃ cs, content = spell cs ∧ Clean cs ∧ spanNumbers cs = spanNumbers bs := by
  obtain ⟨cs, text, numbers, avoids⟩ := holds.exists_content
  exact ⟨cs, text, avoids placeholderStart isMark_of_mem_placeholderStart clean, numbers⟩

end Span

end OfficeFormula
