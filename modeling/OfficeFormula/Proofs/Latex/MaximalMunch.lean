import OfficeFormula.Latex.Token
import OfficeFormula.Proofs.Text.Reader
import OfficeFormula.Proofs.Text.Words

/-!
# Longest tokens

`Munches t ts` says, without a scanner, that the text is made of these tokens with blanks around them, each
token in the form of its kind and as long as it can be (`Fits`). Every text is made of tokens in exactly one
such way, and these are the tokens it is cut into (`munches_iff`).
-/

namespace OfficeFormula.Latex

/-- A character that stands for itself and has no role. -/
def hasNoRole (c : Char) : Bool :=
  !isBlank c && !isAsciiDigit c && !(['\\', '{', '}', '_', '^'].contains c) && !operatorChars.contains c

/-- Braces and script marks. -/
def markTokens : List Token := [.openGroup, .closeGroup, .subscript, .superscript]

/-- The token has the form of its kind, and could not be longer where `rest` follows it. -/
inductive Fits : Token → Text → Prop where
  /-- A command takes all the letters after the backslash. -/
  | letters {name : String} {rest : Text} (ne : name ≠ "") (inside : ∀ c ∈ name.toList, isAsciiLetter c = true)
      (ends : ∀ c ∈ rest.head?, isAsciiLetter c = false) : Fits (.command name) rest
  /-- Where there is no letter it takes one character, whatever that is. -/
  | symbol {c : Char} (other : isAsciiLetter c = false) (rest : Text) : Fits (.command (String.ofList [c])) rest
  /-- A backslash has nothing to take only at the end of the text. -/
  | bare : Fits (.command "") []
  | whole {digits rest : Text} (ne : digits ≠ []) (inside : ∀ c ∈ digits, isAsciiDigit c = true)
      (ends : ∀ c ∈ rest.head?, isAsciiDigit c = false)
      (point : ∀ c more, rest = '.' :: c :: more → isAsciiDigit c = false) : Fits (.number digits) rest
  /-- After one point and its digits, another point does not belong to the number. -/
  | decimal {digits fraction rest : Text} (ne : digits ≠ []) (inside : ∀ c ∈ digits, isAsciiDigit c = true)
      (ne' : fraction ≠ []) (inside' : ∀ c ∈ fraction, isAsciiDigit c = true)
      (ends : ∀ c ∈ rest.head?, isAsciiDigit c = false) : Fits (.number (digits ++ '.' :: fraction)) rest
  | operator {c : Char} (h : operatorChars.contains c = true) (rest : Text) : Fits (.operator c) rest
  | mark {token : Token} (h : token ∈ markTokens) (rest : Text) : Fits token rest
  | literal {c : Char} (h : hasNoRole c = true) (rest : Text) : Fits (.literal c) rest

/-- The text is made of the tokens, with blanks before, between and behind them. -/
inductive Munches : Text → List Token → Prop where
  | blank {gap : Text} (blanks : ∀ c ∈ gap, isBlank c = true) : Munches gap []
  | token {gap rest : Text} {token : Token} {ts : List Token} (blanks : ∀ c ∈ gap, isBlank c = true)
      (fits : Fits token rest) (more : Munches rest ts) : Munches (gap ++ (token.text ++ rest)) (token :: ts)

/-! ## Blanks and single characters -/

theorem tokenize_nil : tokenize [] = [] := by
  rw [tokenize]

/-- A character that is a token by itself. -/
def isSingle (c : Char) : Bool := c ≠ '\\' && !isAsciiDigit c

theorem tokenize_cons {c : Char} (single : isSingle c = true) {token : Token}
    (h : charToken? c = some token) (cs : Text) : tokenize (c :: cs) = token :: tokenize cs := by
  simp only [isSingle, Bool.and_eq_true, decide_eq_true_eq, Bool.not_eq_true'] at single
  rw [tokenize, if_neg single.1, if_neg (by simp [single.2]), h]

theorem isSingle_of_mem_operatorChars {c : Char} (h : operatorChars.contains c = true) :
    isSingle c = true ∧ charToken? c = some (.operator c) := by
  have all : operatorChars.all (fun c => isSingle c && charToken? c = some (.operator c)) = true := by
    decide
  simpa using List.all_eq_true.1 all c (List.contains_iff_mem.1 h)

theorem isSingle_of_hasNoRole {c : Char} (h : hasNoRole c = true) :
    isSingle c = true ∧ charToken? c = some (.literal c) := by
  simp only [hasNoRole, Bool.and_eq_true, Bool.not_eq_true', List.contains_eq_mem, decide_eq_false_iff_not,
    List.mem_cons, List.not_mem_nil, or_false, not_or] at h
  obtain ⟨⟨⟨blank, digit⟩, backslash, opens, closes, sub, sup⟩, operator⟩ := h
  refine ⟨by simp [isSingle, backslash, digit], ?_⟩
  rw [charToken?, if_neg opens, if_neg closes, if_neg sub, if_neg sup, if_neg (by simpa using operator),
    if_neg (by simp [blank])]

/-- No character that has a role is blank. -/
theorem ne_of_isBlank {c d : Char} (blank : isBlank c = true)
    (h : d ∈ ['\\', '{', '}', '_', '^'] ++ operatorChars) : c ≠ d := by
  have visible : (['\\', '{', '}', '_', '^'] ++ operatorChars).all (!isBlank ·) = true := by decide
  rintro rfl
  simpa [blank] using List.all_eq_true.1 visible c h

theorem isSingle_of_isBlank {c : Char} (blank : isBlank c = true) : isSingle c = true ∧ charToken? c = none := by
  have digit : isAsciiDigit c = false := by
    cases digit : isAsciiDigit c with
    | false => rfl
    | true => simp [isBlank_of_isAsciiDigit digit] at blank
  have operator : ¬operatorChars.contains c = true := by
    rw [List.contains_iff_mem]
    exact fun h => ne_of_isBlank blank (List.mem_append_right _ h) rfl
  have other {d : Char} (h : d ∈ ['\\', '{', '}', '_', '^']) : c ≠ d := ne_of_isBlank blank (List.mem_append_left _ h)
  refine ⟨by simpa [isSingle, digit] using other (by decide), ?_⟩
  rw [charToken?, if_neg (other (by decide)), if_neg (other (by decide)), if_neg (other (by decide)),
    if_neg (other (by decide)), if_neg operator, if_pos blank]

theorem tokenize_blanks {gap : Text} (blanks : ∀ c ∈ gap, isBlank c = true) (rest : Text) :
    tokenize (gap ++ rest) = tokenize rest := by
  induction gap with
  | nil => rfl
  | cons c cs ih =>
    rw [List.forall_mem_cons] at blanks
    obtain ⟨single, none⟩ := isSingle_of_isBlank blanks.1
    simp only [isSingle, Bool.and_eq_true, decide_eq_true_eq, Bool.not_eq_true'] at single
    rw [List.cons_append, tokenize, if_neg single.1, if_neg (by simp [single.2]), none]
    exact ih blanks.2

/-- A character that is neither part of a longer token nor blank is the token of its class. -/
theorem fits_charToken? {c : Char} {token : Token} (single : isSingle c = true) (h : charToken? c = some token)
    (rest : Text) : Fits token rest ∧ token.text = [c] := by
  simp only [isSingle, Bool.and_eq_true, decide_eq_true_eq, Bool.not_eq_true'] at single
  unfold charToken? at h
  repeat' split at h
  all_goals simp only [Option.some.injEq, reduceCtorEq] at h
  all_goals subst h
  · next c => exact ⟨.mark (by decide) rest, by rw [c, Token.text]⟩
  · next c => exact ⟨.mark (by decide) rest, by rw [c, Token.text]⟩
  · next c => exact ⟨.mark (by decide) rest, by rw [c, Token.text]⟩
  · next c => exact ⟨.mark (by decide) rest, by rw [c, Token.text]⟩
  · next operator => exact ⟨.operator operator rest, rfl⟩
  · next opens closes sub sup operator blank =>
    refine ⟨.literal ?_ rest, rfl⟩
    simpa [hasNoRole, blank, single, opens, closes, sub, sup] using operator

theorem isBlank_of_charToken?_eq_none {c : Char} (h : charToken? c = none) : isBlank c = true := by
  unfold charToken? at h
  repeat' split at h
  all_goals cases h
  assumption

/-! ## Commands and numbers -/

theorem takeWhile_eq_self {p : Char → Bool} {t : Text} (h : ∀ c ∈ t, p c = true) : t.takeWhile p = t := by
  have whole : (t ++ []).takeWhile p = t ++ [].takeWhile p := List.takeWhile_append_of_pos h
  simpa using whole

theorem commandName_letters {t : Text} (ne : t ≠ []) (letters : ∀ c ∈ t, isAsciiLetter c = true)
    {rest : Text} (ends : ∀ c ∈ rest.head?, isAsciiLetter c = false) :
    commandName (t ++ rest) = t := by
  rw [commandName, (Reader.takeWhile_append_of_stop ends t).1, takeWhile_eq_self letters]
  cases t with
  | nil => exact absurd rfl ne
  | cons c cs => rfl

/-- A command of letters ends where no letter follows. -/
theorem tokenize_command {name : String} (ne : name ≠ "")
    (letters : ∀ c ∈ name.toList, isAsciiLetter c = true) {rest : Text}
    (ends : ∀ c ∈ rest.head?, isAsciiLetter c = false) :
    tokenize ('\\' :: (name.toList ++ rest)) = .command name :: tokenize rest := by
  have ne' : name.toList ≠ [] := by simpa using ne
  rw [tokenize, if_pos rfl]
  simp only [commandName_letters ne' letters ends, List.drop_left, String.ofList_toList]

/-- Digits are a whole number where no digit follows and no point with a digit. -/
theorem numberTail_whole {t rest : Text} (h : ∀ c ∈ t, isAsciiDigit c = true)
    (ends : ∀ c ∈ rest.head?, isAsciiDigit c = false)
    (point : ∀ c more, rest = '.' :: c :: more → isAsciiDigit c = false) : numberTail (t ++ rest) = t := by
  have taken := (Reader.takeWhile_append_of_stop ends t).1
  have after : rest.dropWhile isAsciiDigit = rest := by
    cases rest with
    | nil => rfl
    | cons c more => exact List.dropWhile_cons_of_neg (by simp [ends c rfl])
  rw [numberTail, taken, takeWhile_eq_self h, List.dropWhile_append_of_pos h, after]
  split
  · next more =>
    cases more with
    | nil => rfl
    | cons c more => rw [List.takeWhile_cons_of_neg (by simp [point c more rfl])]
  · rfl

theorem numberTail_decimal {t u rest : Text} (h : ∀ c ∈ t, isAsciiDigit c = true) (ne : u ≠ [])
    (h' : ∀ c ∈ u, isAsciiDigit c = true) (ends : ∀ c ∈ rest.head?, isAsciiDigit c = false) :
    numberTail ((t ++ '.' :: u) ++ rest) = t ++ '.' :: u := by
  have whole : ((t ++ '.' :: u) ++ rest).takeWhile isAsciiDigit = t := by
    rw [List.append_assoc, List.takeWhile_append_of_pos h, List.cons_append,
      List.takeWhile_cons_of_neg (by decide), List.append_nil]
  have after : ((t ++ '.' :: u) ++ rest).dropWhile isAsciiDigit = '.' :: (u ++ rest) := by
    rw [List.append_assoc, List.dropWhile_append_of_pos h, List.cons_append, List.dropWhile_cons_of_neg (by decide)]
  have fraction := (Reader.takeWhile_append_of_stop ends u).1
  rw [numberTail, whole, after]
  simp only [fraction, takeWhile_eq_self h']

/-- A number ends where its first digit does not go on. -/
theorem tokenize_digit {c : Char} {more rest : Text} (digit : isAsciiDigit c = true)
    (tail : numberTail (more ++ rest) = more) :
    tokenize (c :: (more ++ rest)) = .number (c :: more) :: tokenize rest := by
  have plain : c ≠ '\\' := by
    rintro rfl
    exact absurd digit (by decide)
  rw [tokenize, if_neg plain, if_pos digit]
  simp only [tail, List.drop_left]

/-- The characters after a backslash begin with a name that cannot be longer. -/
theorem exists_fits_commandName (cs : Text) :
    ∃ rest, cs = commandName cs ++ rest ∧ Fits (.command (String.ofList (commandName cs))) rest := by
  unfold commandName
  split
  · next none =>
    cases cs with
    | nil => exact ⟨[], rfl, .bare⟩
    | cons c more =>
      have other : isAsciiLetter c = false := by
        cases h : isAsciiLetter c with
        | false => rfl
        | true => simp [List.takeWhile_cons_of_pos h] at none
      exact ⟨more, rfl, .symbol other more⟩
  · next some =>
    refine ⟨cs.dropWhile isAsciiLetter, List.takeWhile_append_dropWhile.symm, .letters ?_ ?_ ?_⟩
    · simpa using some
    · rw [String.toList_ofList]
      exact List.all_eq_true.1 List.all_takeWhile
    · intro c hc
      have first := List.head?_dropWhile_not isAsciiLetter cs
      rw [hc] at first
      simpa using first

/-- A digit begins a number that cannot be longer. -/
theorem exists_fits_numberTail {c : Char} (digit : isAsciiDigit c = true) (cs : Text) :
    ∃ rest, cs = numberTail cs ++ rest ∧ Fits (.number (c :: numberTail cs)) rest := by
  have inside (t : Text) : ∀ d ∈ t.takeWhile isAsciiDigit, isAsciiDigit d = true :=
    List.all_eq_true.1 List.all_takeWhile
  have ends (t : Text) : ∀ d ∈ (t.dropWhile isAsciiDigit).head?, isAsciiDigit d = false := by
    intro d hd
    have first := List.head?_dropWhile_not isAsciiDigit t
    rw [hd] at first
    simpa using first
  have split (t : Text) : t = t.takeWhile isAsciiDigit ++ t.dropWhile isAsciiDigit :=
    List.takeWhile_append_dropWhile.symm
  have digits : ∀ d ∈ c :: cs.takeWhile isAsciiDigit, isAsciiDigit d = true :=
    List.forall_mem_cons.2 ⟨digit, inside cs⟩
  unfold numberTail
  split
  · next more point =>
    have parts := split cs
    rw [point] at parts
    split
    · next none =>
      refine ⟨'.' :: more, parts, .whole (by simp) digits (by rw [← point]; exact ends cs) ?_⟩
      intro d rest h
      cases digit : isAsciiDigit d with
      | false => rfl
      | true =>
        rw [(List.cons.inj h).2, List.takeWhile_cons_of_pos digit] at none
        cases none
    · next some =>
      refine ⟨more.dropWhile isAsciiDigit, ?_, ?_⟩
      · rw [List.append_assoc, List.cons_append, ← split more]
        exact parts
      · exact .decimal (by simp) digits (by simpa using some) (inside more) (ends more)
  · next other =>
    refine ⟨cs.dropWhile isAsciiDigit, split cs, .whole (by simp) digits (ends cs) ?_⟩
    intro d more h
    exact absurd h (other (d :: more))

/-! ## Both directions -/

/-- A token that fits is the first token of its text, and the text goes on behind it. -/
theorem Fits.tokenize_append {token : Token} {rest : Text} (fits : Fits token rest) :
    tokenize (token.text ++ rest) = token :: tokenize rest := by
  cases fits with
  | letters ne inside ends => exact tokenize_command ne inside ends
  | @symbol c other =>
    have name : commandName (c :: rest) = [c] := by
      rw [commandName, List.takeWhile_cons_of_neg (by simp [other])]
      rfl
    rw [Token.text, String.toList_ofList, List.cons_append, List.singleton_append, tokenize, if_pos rfl]
    simp only [name, List.length_singleton, List.drop_succ_cons, List.drop_zero]
  | bare =>
    have name : "".toList = [] := by simp
    rw [Token.text, name, List.append_nil, tokenize_nil, tokenize, if_pos rfl]
    simp [commandName, tokenize_nil]
  | whole ne inside ends point =>
    obtain ⟨c, more, rfl⟩ := List.exists_cons_of_ne_nil ne
    rw [List.forall_mem_cons] at inside
    exact tokenize_digit inside.1 (numberTail_whole inside.2 ends point)
  | @decimal digits fraction _ ne inside ne' inside' ends =>
    obtain ⟨c, more, rfl⟩ := List.exists_cons_of_ne_nil ne
    rw [List.forall_mem_cons] at inside
    exact tokenize_digit inside.1 (numberTail_decimal inside.2 ne' inside' ends)
  | operator h =>
    obtain ⟨single, token⟩ := isSingle_of_mem_operatorChars h
    exact tokenize_cons single token rest
  | mark h =>
    simp only [markTokens, List.mem_cons, List.not_mem_nil, or_false] at h
    rcases h with rfl | rfl | rfl | rfl <;> exact tokenize_cons (by decide) (by decide) rest
  | literal h =>
    obtain ⟨single, token⟩ := isSingle_of_hasNoRole h
    exact tokenize_cons single token rest

theorem Munches.eq_tokenize {t : Text} {ts : List Token} (munches : Munches t ts) : ts = tokenize t := by
  induction munches with
  | blank blanks =>
    have none := tokenize_blanks blanks []
    rw [List.append_nil] at none
    rw [none, tokenize_nil]
  | token blanks fits _ ih => rw [tokenize_blanks blanks, fits.tokenize_append, ← ih]

/-- A blank before the text belongs to its first gap. -/
theorem Munches.cons_blank {c : Char} (blank : isBlank c = true) {t : Text} {ts : List Token}
    (munches : Munches t ts) : Munches (c :: t) ts := by
  cases munches with
  | blank blanks => exact .blank (List.forall_mem_cons.2 ⟨blank, blanks⟩)
  | token blanks fits more => exact .token (List.forall_mem_cons.2 ⟨blank, blanks⟩) fits more

/-- No gap stands before the first token. -/
theorem Munches.cons {token : Token} {rest : Text} {ts : List Token} (fits : Fits token rest)
    (more : Munches rest ts) : Munches (token.text ++ rest) (token :: ts) :=
  @Munches.token [] rest token ts (by simp) fits more

theorem munches_tokenize (t : Text) : Munches t (tokenize t) := by
  fun_induction tokenize t with
  | case1 => exact .blank (by simp)
  | case2 cs name ih =>
    obtain ⟨rest, split, fits⟩ := exists_fits_commandName cs
    have behind : cs.drop name.length = rest := (congrArg (List.drop name.length) split).trans List.drop_left
    rw [behind] at ih ⊢
    have munches := Munches.cons fits ih
    rwa [Token.text, String.toList_ofList, List.cons_append, ← split] at munches
  | case3 c cs _ digit more ih =>
    obtain ⟨rest, split, fits⟩ := exists_fits_numberTail digit cs
    have behind : cs.drop more.length = rest := (congrArg (List.drop more.length) split).trans List.drop_left
    rw [behind] at ih ⊢
    have munches := Munches.cons fits ih
    rwa [Token.text, List.cons_append, ← split] at munches
  | case4 c cs plain digit token h ih =>
    obtain ⟨fits, text⟩ := fits_charToken? (by simp [isSingle, plain, digit]) h cs
    have munches := Munches.cons fits ih
    rwa [text] at munches
  | case5 c cs _ _ none ih => exact ih.cons_blank (isBlank_of_charToken?_eq_none none)

/-- Every text is made of tokens that fit in exactly one way, and these are the tokens it is cut into. -/
theorem munches_iff {t : Text} {ts : List Token} : Munches t ts ↔ ts = tokenize t := by
  constructor
  · exact Munches.eq_tokenize
  · rintro rfl
    exact munches_tokenize t

/-! ## The characters of tokens -/

theorem Fits.text_ne_nil {token : Token} {rest : Text} (fits : Fits token rest) : token.text ≠ [] := by
  cases fits with
  | letters | symbol | bare => simp [Token.text]
  | whole ne => exact ne
  | decimal => simp [Token.text]
  | operator | literal => simp [Token.text]
  | mark h =>
    simp only [markTokens, List.mem_cons, List.not_mem_nil, or_false] at h
    rcases h with rfl | rfl | rfl | rfl <;> simp [Token.text]

/-- No token is empty, and its characters are those of the text. -/
theorem text_of_mem_tokenize {t : Text} {token : Token} (h : token ∈ tokenize t) :
    token.text ≠ [] ∧ token.text ⊆ t := by
  have munches := munches_tokenize t
  generalize tokenize t = ts at munches h
  induction munches with
  | blank => simp at h
  | token _ fits _ ih =>
    rcases List.mem_cons.1 h with rfl | h
    · exact ⟨fits.text_ne_nil, fun c hc => List.mem_append_right _ (List.mem_append_left _ hc)⟩
    · obtain ⟨ne, inside⟩ := ih h
      exact ⟨ne, fun c hc => List.mem_append_right _ (List.mem_append_right _ (inside hc))⟩

end OfficeFormula.Latex
