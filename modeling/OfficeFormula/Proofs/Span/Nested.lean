import OfficeFormula.Proofs.Span.Parentheses
import OfficeFormula.Proofs.Span.Working

/-!
# Nested environments

An environment is read up to the first end of its name. In a text of properly nested environments (`Part`)
this is the end of the environment itself, unless one of the same name stands inside it. So every outermost
environment becomes one formula exactly if none has its own name inside, and otherwise an end is left over
in the text (`protect_nested_iff`).

The text is read as the beginnings and ends of environments and the characters between them (`Token`), and
what becomes of it is told from these (`Carries`). An end is left over where more are left than beginnings,
since what is set aside never has more ends than beginnings (`Carries.exists_end`).
-/

namespace OfficeFormula.Span

/-! ## Texts without the marks of other formulas -/

/-- The recogniser finds something only in a text with a character of which `p` holds. -/
def Needs (p : Char → Bool) (find : Recogniser) : Prop :=
  ∀ ⦃previous t hit⦄, find previous t = some hit → ∃ c ∈ t, p c = true

/-- Where the characters a recogniser needs are missing, it finds nothing. -/
theorem Needs.segments {p : Char → Bool} {find : Recogniser} (needs : Needs p find) {t : Text}
    (free : ∀ c ∈ t, p c = false) : segments find t = t.map .plain := by
  have cut : segmentsAfter find none (t ++ []) = t.map .plain ++ segmentsAfter find (lastChar none t) [] := by
    refine segmentsAfter_append fun previous u suffix _ => ?_
    rw [List.append_nil]
    cases h : find previous u with
    | none => rfl
    | some hit =>
      obtain ⟨c, hc, here⟩ := needs h
      rw [free c (suffix.subset hc)] at here
      simp at here
  rw [List.append_nil] at cut
  rw [Span.segments, cut, segmentsAfter, List.append_nil]

theorem mem_of_after?_bind {start t : Text} {f : Text → Option Hit} {hit : Hit}
    (h : (Text.after? start t >>= f) = some hit) {c : Char} (hc : c ∈ start) : c ∈ t := by
  obtain ⟨rest, after, _⟩ := Option.bind_eq_some_iff.1 h
  rw [Text.after?_eq_some_iff.1 after]
  exact List.mem_append_left rest hc

/-- The marks of code and of all formulas but environments. -/
def otherMarks : List Char := ['`', '~', '<', '[', '$', '(', ')']

def isOtherMark (c : Char) : Bool := otherMarks.contains c

theorem needs_fencedCode : Needs isOtherMark fencedCode := by
  intro previous t hit h
  unfold fencedCode at h
  split at h
  · simp only at h
    split at h
    · next c cs _ _ bare _ =>
      split at h
      · next fence =>
        have inside : c ∈ (t.takeWhile Text.notNewline).dropWhile isTabOrSpace := bare ▸ List.mem_cons_self
        refine ⟨c, (List.takeWhile_sublist _).subset ((List.dropWhile_sublist _).subset inside), ?_⟩
        rcases Bool.or_eq_true _ _ ▸ fence with tick | tilde
        · rw [of_decide_eq_true tick]; decide
        · rw [of_decide_eq_true tilde]; decide
      · cases h
    · cases h
  · cases h

theorem needs_codeSpan : Needs isOtherMark codeSpan := by
  intro previous t hit h
  obtain ⟨middle, rest, rfl, _⟩ := exists_of_codeSpan h
  exact ⟨'`', by simp, by decide⟩

theorem needs_renderedMarkup : Needs isOtherMark renderedMarkup :=
  fun _ _ _ h => ⟨'<', mem_of_after?_bind h (by decide), by decide⟩

theorem needs_bracketBlock : Needs isOtherMark bracketBlock := by
  intro previous t hit h
  unfold bracketBlock at h
  split at h
  · exact ⟨'[', mem_of_after?_bind h (by decide), by decide⟩
  · cases h

theorem needs_displayBracket : Needs isOtherMark displayBracket :=
  fun _ _ _ h => ⟨'[', mem_of_after?_bind h (by decide), by decide⟩

theorem needs_displayDollar : Needs isOtherMark displayDollar :=
  fun _ _ _ h => ⟨'$', mem_of_after?_bind h (by decide), by decide⟩

theorem needs_inlineParenthesis : Needs isOtherMark inlineParenthesis :=
  fun _ _ _ h => ⟨'(', mem_of_after?_bind h (by decide), by decide⟩

theorem needs_inlineDollar : Needs isOtherMark inlineDollar := by
  intro previous t hit h
  unfold inlineDollar at h
  split at h
  · cases h
  · exact ⟨'$', mem_of_after?_bind h (by decide), by decide⟩

/-- Placeholders need digits, and prose without digits has none. -/
theorem needs_placeholderForm : Needs isAsciiDigit placeholderForm := by
  intro previous t hit h
  obtain ⟨rest, after, h⟩ := Option.bind_eq_some_iff.1 h
  simp only at h
  split at h
  · cases h
  · next digits =>
    obtain ⟨c, cs, first⟩ := List.exists_cons_of_ne_nil digits
    have here : c ∈ rest.takeWhile isAsciiDigit := first ▸ List.mem_cons_self
    rw [Text.after?_eq_some_iff.1 after]
    exact ⟨c, List.mem_append_right _ ((List.takeWhile_sublist _).subset here),
      List.all_eq_true.1 List.all_takeWhile c here⟩

/-- A text without the marks of other formulas goes through the search for environments only, and through
the others if that leaves it without these marks. -/
theorem protect_of_unmarked {t t' : Text} {s : Store} (free : ∀ c ∈ t, isOtherMark c = false)
    (environments : Store.empty.extractForm environment .block t = (s, t')) (code : s.code = [])
    (free' : ∀ c ∈ t', isOtherMark c = false) (soft : Bool) : protect soft t = (t', s.spans) := by
  have same {find : Recogniser} (needs : Needs isOtherMark find) {t : Text} (free : ∀ c ∈ t, isOtherMark c = false)
      (s : Store) (f : Store → Text → Text → Store × Text) : substitute f s (segments find t) = (s, t) := by
    rw [needs.segments free, substitute_map_plain]
  have parentheses (isMath : Text → Bool) : s.extractSoft isMath t' = (s, t') := by
    have plain : ∀ c ∈ t', c ≠ '(' ∧ c ≠ ')' := by
      refine fun c hc => ⟨?_, ?_⟩ <;> rintro rfl <;> exact absurd (free' _ hc) (by decide)
    have copied := softScan_append isMath s plain none 0 [] []
    rw [List.append_nil, if_pos rfl] at copied
    rw [Store.extractSoft, copied]
    simp [Store.softScan]
  have last (isMath : Text → Bool) : (if soft then s.extractSoft isMath t' else (s, t')) = (s, t') := by
    rw [parentheses, ite_self]
  simp only [protect, protectWith, Store.extractCode, Store.extractRendered, Store.extractBracketBlocks,
    same needs_fencedCode free, same needs_codeSpan free, same needs_renderedMarkup free,
    same needs_bracketBlock free, environments]
  simp only [Store.extractForm, same needs_displayBracket free', same needs_displayDollar free',
    same needs_inlineParenthesis free', same needs_inlineDollar free', last, code]
  rfl

namespace Nested

/-! ## Texts of nested environments -/

/-- A character, or an environment with what stands in it. -/
inductive Part where
  | char (c : Char)
  | block (name : Text) (body : List Part)

/-- A character, or the beginning or the end of an environment. -/
inductive Token where
  | char (c : Char)
  | opening (name : Text)
  | closing (name : Text)
deriving DecidableEq

def Token.text : Token → Text
  | char c => [c]
  | opening name => beginText name
  | closing name => endText name

def write (ts : List Token) : Text := ts.flatMap Token.text

mutual

def Part.tokens : Part → List Token
  | .char c => [.char c]
  | .block name body => .opening name :: (tokensAll body ++ [.closing name])

def tokensAll : List Part → List Token
  | [] => []
  | p :: ps => p.tokens ++ tokensAll ps

end

mutual

/-- The names of environments, those inside others too. -/
def Part.names : Part → List Text
  | .char _ => []
  | .block name body => name :: namesAll body

def namesAll : List Part → List Text
  | [] => []
  | p :: ps => p.names ++ namesAll ps

end

/-- The text of some parts. -/
def writeAll (ps : List Part) : Text := write (tokensAll ps)

/-- A character that is part of no mark, and no digit. -/
def isUnmarked (c : Char) : Bool := c ≠ '\\' && !isOtherMark c && !isAsciiDigit c

def isEnvironmentName (name : Text) : Bool := name ≠ [] && name.all isEnvironmentChar

def Token.isLawful : Token → Bool
  | char c => isUnmarked c
  | opening name | closing name => isEnvironmentName name

/-- No environment is empty, and what is between them is prose. -/
inductive Part.Lawful : Part → Prop where
  | char {c : Char} (prose : isUnmarked c = true) : Lawful (.char c)
  | block {name : Text} {body : List Part} (named : isEnvironmentName name = true) (ne : body ≠ [])
      (inside : ∀ p ∈ body, p.Lawful) : Lawful (.block name body)

/-- The formula that an environment becomes: its beginning, its content and its end on lines of their own. -/
def blockContent (name body : Text) : Text := beginText name ++ '\n' :: body.trim ++ '\n' :: endText name

/-- The text with placeholders with numbers from `i` on for the outermost environments. -/
def carried (i : Nat) : List Part → Text
  | [] => []
  | .char c :: ps => c :: carried i ps
  | .block _ _ :: ps => placeholder i ++ carried (i + 1) ps

/-- The formulas of the outermost environments, with numbers from `i` on. -/
def entries (i : Nat) : List Part → List Entry
  | [] => []
  | .char _ :: ps => entries i ps
  | .block name body :: ps => ⟨i, .block, blockContent name (writeAll body)⟩ :: entries (i + 1) ps

/-- No outermost environment has one of its own name inside. -/
def NamedApart (ps : List Part) : Prop := ∀ name body, .block name body ∈ ps → name ∉ namesAll body

theorem namedApart_cons {p : Part} {ps : List Part} :
    NamedApart (p :: ps) ↔ (∀ name body, .block name body = p → name ∉ namesAll body) ∧ NamedApart ps := by
  simp only [NamedApart, List.mem_cons, or_imp, forall_and]

theorem tokensAll_eq_flatMap (ps : List Part) : tokensAll ps = ps.flatMap Part.tokens := by
  induction ps with
  | nil => rw [tokensAll]; rfl
  | cons p ps ih => rw [tokensAll, ih, List.flatMap_cons]

theorem write_append (ts us : List Token) : write (ts ++ us) = write ts ++ write us := List.flatMap_append

theorem write_cons (t : Token) (ts : List Token) : write (t :: ts) = t.text ++ write ts := List.flatMap_cons

mutual

theorem closing_mem_tokens (name : Text) : ∀ p : Part, .closing name ∈ p.tokens ↔ name ∈ p.names
  | .char c => by simp [Part.tokens, Part.names]
  | .block other body => by simp [Part.tokens, Part.names, closing_mem_tokensAll name body, or_comm]

/-- An environment ends in the text if it is in the tree. -/
theorem closing_mem_tokensAll (name : Text) : ∀ ps : List Part, .closing name ∈ tokensAll ps ↔ name ∈ namesAll ps
  | [] => by simp [tokensAll, namesAll]
  | p :: ps => by
    rw [tokensAll, namesAll, List.mem_append, List.mem_append, closing_mem_tokens name p,
      closing_mem_tokensAll name ps]

end

/-- The tokens of lawful parts are lawful. -/
theorem Part.Lawful.tokens {p : Part} (lawful : p.Lawful) : ∀ t ∈ p.tokens, t.isLawful = true := by
  induction lawful with
  | char prose => simpa [Part.tokens, Token.isLawful] using prose
  | block named _ _ ih =>
    intro t ht
    rw [Part.tokens, tokensAll_eq_flatMap] at ht
    simp only [List.mem_cons, List.mem_append, List.mem_flatMap, List.not_mem_nil, or_false] at ht
    rcases ht with rfl | ⟨p, hp, ht⟩ | rfl
    · exact named
    · exact ih p hp t ht
    · exact named

theorem isLawful_of_mem_tokensAll {ps : List Part} (lawful : ∀ p ∈ ps, p.Lawful) :
    ∀ t ∈ tokensAll ps, t.isLawful = true := by
  intro t ht
  rw [tokensAll_eq_flatMap] at ht
  obtain ⟨p, hp, ht⟩ := List.mem_flatMap.1 ht
  exact (lawful p hp).tokens t ht

/-! ## Reading tokens -/

theorem isOtherMark_of_isEnvironmentChar {c : Char} (h : isEnvironmentChar c = true) : isOtherMark c = false := by
  refine Bool.eq_false_iff.2 fun mark => ?_
  have none : otherMarks.all (!isEnvironmentChar ·) = true := by decide
  have := List.all_eq_true.1 none c (by simpa [isOtherMark] using mark)
  simp [h] at this

/-- The marks of an environment are neither digits nor marks of other formulas. -/
theorem Token.mem_text {t : Token} (lawful : t.isLawful = true) {c : Char} (hc : c ∈ t.text) :
    isOtherMark c = false ∧ isAsciiDigit c = false := by
  have command {start name : Text} (plain : start.all (fun c => !isOtherMark c && !isAsciiDigit c) = true)
      (named : isEnvironmentName name = true) (hc : c ∈ start ++ name ++ ['}']) :
      isOtherMark c = false ∧ isAsciiDigit c = false := by
    simp only [isEnvironmentName, Bool.and_eq_true, List.all_eq_true] at named
    simp only [List.mem_append, List.mem_singleton] at hc
    rcases hc with (hc | hc) | rfl
    · simpa using List.all_eq_true.1 plain c hc
    · have char := named.2 c hc
      exact ⟨isOtherMark_of_isEnvironmentChar char, isAsciiDigit_eq_false_of_isEnvironmentChar char⟩
    · decide
  cases t with
  | char d =>
    obtain rfl := List.mem_singleton.1 hc
    simp only [isLawful, isUnmarked, Bool.and_eq_true, Bool.not_eq_true'] at lawful
    exact ⟨lawful.1.2, lawful.2⟩
  | opening name => exact command (by decide) lawful hc
  | closing name => exact command (by decide) lawful hc

/-- Written tokens have no other marks and no digits. -/
theorem mem_write {ts : List Token} (lawful : ∀ t ∈ ts, t.isLawful = true) {c : Char} (hc : c ∈ write ts) :
    isOtherMark c = false ∧ isAsciiDigit c = false := by
  obtain ⟨t, ht, hc⟩ := List.mem_flatMap.1 hc
  exact Token.mem_text (lawful t ht) hc

/-- A backslash stands only at the head of a token. -/
theorem Token.exists_text {t : Token} (lawful : t.isLawful = true) : ∃ c cs, t.text = c :: cs ∧ '\\' ∉ cs := by
  have named {name : Text} (h : isEnvironmentName name = true) : '\\' ∉ name := by
    simp only [isEnvironmentName, Bool.and_eq_true, List.all_eq_true] at h
    exact fun hc => absurd (h.2 _ hc) (by decide)
  cases t with
  | char c => exact ⟨c, [], rfl, by simp⟩
  | opening name => exact ⟨'\\', "begin\x7b".toList ++ name ++ ['}'], rfl, by simp [named lawful]⟩
  | closing name => exact ⟨'\\', "end\x7b".toList ++ name ++ ['}'], rfl, by simp [named lawful]⟩

theorem beginText_eq (name : Text) : beginText name = "\\begin\x7b".toList ++ (name ++ ['}']) :=
  List.append_assoc ..

theorem endText_eq (name : Text) : endText name = "\\end\x7b".toList ++ (name ++ ['}']) := List.append_assoc ..

theorem environment_of_ne {previous : Option Char} {c : Char} (other : c ≠ '\\') (cs : Text) :
    environment previous (c :: cs) = none := by
  have absent : Text.after? "\\begin\x7b".toList (c :: cs) = none := by
    rw [show "\\begin\x7b".toList = '\\' :: "begin\x7b".toList by decide, Text.after?, if_neg other.symm]
  rw [environment, absent]
  rfl

theorem startsWith_endText_of_ne {name : Text} {c : Char} (other : c ≠ '\\') (cs : Text) :
    Text.startsWith (endText name) (c :: cs) = false := by
  have start : endText name = '\\' :: ("end\x7b".toList ++ name ++ ['}']) := rfl
  rw [Text.startsWith, start, Text.after?, if_neg other.symm]
  rfl

/-- The name of a command is what stands before its brace. -/
theorem takeWhile_name {name : Text} (named : isEnvironmentName name = true) (rest : Text) :
    (name ++ '}' :: rest).takeWhile isEnvironmentChar = name := by
  simp only [isEnvironmentName, Bool.and_eq_true, List.all_eq_true] at named
  rw [List.takeWhile_append_of_pos named.2, List.takeWhile_cons_of_neg (by decide), List.append_nil]

/-- An end of this name is found only where one is written. -/
theorem startsWith_endText_write {name : Text} (named : isEnvironmentName name = true) {t : Token}
    (lawful : t.isLawful = true) (ts : List Token) :
    Text.startsWith (endText name) (write (t :: ts)) = decide (t = .closing name) := by
  rw [write_cons, Bool.eq_iff_iff, decide_eq_true_eq, Text.startsWith_iff]
  constructor
  · rintro ⟨rest, h⟩
    cases t with
    | char c =>
      simp only [Token.isLawful, isUnmarked, Bool.and_eq_true, decide_eq_true_eq] at lawful
      exact absurd (List.cons.inj h).1 lawful.1.1
    | opening other =>
      have second := (List.cons.inj (List.cons.inj h).2).1
      exact absurd second (by decide)
    | closing other =>
      have names : other ++ '}' :: write ts = name ++ '}' :: rest := by
        simp only [Token.text, endText_eq, List.append_assoc, List.append_cancel_left_eq] at h
        exact h
      have same := congrArg (List.takeWhile isEnvironmentChar) names
      rw [takeWhile_name lawful, takeWhile_name named] at same
      rw [same]
  · rintro rfl
    exact ⟨write ts, rfl⟩

theorem before?_append {stop : Text → Bool} {w t : Text}
    (absent : ∀ u, u <:+ w → u ≠ [] → stop (u ++ t) = false) :
    Text.before? Text.anyChar stop (w ++ t) = (Text.before? Text.anyChar stop t).map (w ++ ·) := by
  induction w with
  | nil => simp
  | cons c w ih =>
    have here := absent (c :: w) (List.suffix_refl _) (by simp)
    have more := ih fun u suffix ne => absent u (suffix.trans (List.suffix_cons c w)) ne
    rw [List.cons_append] at here ⊢
    rw [Text.before?, here, more]
    simp [Text.anyChar, Function.comp_def]

/-- No end is found inside a token. -/
theorem startsWith_endText_inside {name cs u : Text} (free : '\\' ∉ cs) (suffix : u <:+ cs) (ne : u ≠ []) (t : Text) :
    Text.startsWith (endText name) (u ++ t) = false := by
  cases u with
  | nil => exact absurd rfl ne
  | cons d u =>
    refine startsWith_endText_of_ne ?_ _
    rintro rfl
    exact free (suffix.subset List.mem_cons_self)

section Environment

variable {name : Text} {inside : List Token} (named : isEnvironmentName name = true)
  (lawful : ∀ t ∈ inside, t.isLawful = true) (first : .closing name ∉ inside)

include named lawful first

/-- The content of an environment ends before the first end with its name. -/
theorem before?_write (after : List Token) :
    Text.before? Text.anyChar (Text.startsWith (endText name)) (write (inside ++ .closing name :: after)) =
      some (write inside) := by
  induction inside with
  | nil =>
    have here := startsWith_endText_write named (t := .closing name) named after
    obtain ⟨c, cs, text, _⟩ := Token.exists_text (t := .closing name) named
    rw [decide_eq_true rfl, write_cons, text, List.cons_append] at here
    rw [List.nil_append, write_cons, text, List.cons_append, Text.before?, if_pos here]
    rfl
  | cons t inside ih =>
    rw [List.forall_mem_cons] at lawful
    rw [List.mem_cons, not_or] at first
    obtain ⟨c, cs, text, free⟩ := Token.exists_text lawful.1
    have start := startsWith_endText_write named lawful.1 (inside ++ .closing name :: after)
    rw [decide_eq_false (Ne.symm first.1)] at start
    rw [List.cons_append, write_cons, before?_append, ih lawful.2 first.2, Option.map_some, write_cons]
    intro u suffix ne
    rw [text] at suffix
    rcases List.suffix_cons_iff.1 suffix with rfl | suffix
    · rwa [← text, ← write_cons]
    · exact startsWith_endText_inside free suffix ne _

theorem before₁?_write (ne : inside ≠ []) (after : List Token) :
    Text.before₁? Text.anyChar (Text.startsWith (endText name)) (write (inside ++ .closing name :: after)) =
      some (write inside) := by
  cases inside with
  | nil => exact absurd rfl ne
  | cons t inside =>
    rw [List.forall_mem_cons] at lawful
    rw [List.mem_cons, not_or] at first
    obtain ⟨c, cs, text, free⟩ := Token.exists_text lawful.1
    have rest := before?_write named lawful.2 first.2 after
    rw [List.cons_append, write_cons, write_cons, text, List.cons_append, Text.before₁?,
      before?_append fun u suffix ne => startsWith_endText_inside free suffix ne _, rest]
    simp [Text.anyChar]

/-- An environment is found at its beginning, and reaches to the first end of its name. -/
theorem environment_write (ne : inside ≠ []) (previous : Option Char) (after : List Token) :
    environment previous (write (.opening name :: (inside ++ .closing name :: after))) =
      some ⟨(write (.opening name :: (inside ++ [.closing name]))).length, blockContent name (write inside)⟩ := by
  have content := before₁?_write named lawful first ne after
  have text : write (.opening name :: (inside ++ .closing name :: after)) =
      "\\begin\x7b".toList ++ (name ++ '}' :: write (inside ++ .closing name :: after)) := by
    rw [write_cons, Token.text, beginText_eq, List.append_assoc, List.append_assoc]
    rfl
  have nonempty : ¬name = [] := by
    rw [isEnvironmentName, Bool.and_eq_true, decide_eq_true_eq] at named
    exact named.1
  have brace (r : Text) : Text.after? ['}'] ('}' :: r) = some r := Text.after?_self_append ['}'] r
  rw [environment, text, Text.after?_self_append]
  simp only [Option.bind_eq_bind, Option.bind_some]
  rw [takeWhile_name named, if_neg nonempty, List.drop_left, brace, Option.bind_some, content, Option.bind_some]
  simp only [Option.pure_def, Option.some.injEq, Hit.mk.injEq]
  refine ⟨?_, rfl⟩
  simp only [write_cons, write_append, Token.text, List.length_append]
  simp [write, Token.text]
  omega

end Environment

/-! ## Setting environments aside -/

/-- What becomes of a text: the formulas that are set aside, with numbers from `i` on, and the text that is left
with their placeholders. -/
inductive Carries : Nat → List Token → List Entry → Text → Prop where
  | nil (i : Nat) : Carries i [] [] []
  | char {i : Nat} {c : Char} {ts : List Token} {es : List Entry} {t : Text} (more : Carries i ts es t) :
      Carries i (.char c :: ts) es (c :: t)
  | closing {i : Nat} {name : Text} {ts : List Token} {es : List Entry} {t : Text} (more : Carries i ts es t) :
      Carries i (.closing name :: ts) es (endText name ++ t)
  | block {i : Nat} {name : Text} {ts inside after : List Token} {es : List Entry} {t : Text}
      (split : ts = inside ++ .closing name :: after) (ne : inside ≠ []) (first : .closing name ∉ inside)
      (more : Carries (i + 1) after es t) :
      Carries i (.opening name :: ts) (⟨i, .block, blockContent name (write inside)⟩ :: es) (placeholder i ++ t)

/-- Content without digits holds no placeholder, so it is recorded as it is. -/
theorem extract_of_digitless {s : Store} (code : s.code = []) {content : Text}
    (free : ∀ c ∈ content, isAsciiDigit c = false) (kind : Kind) (source : Text) :
    s.extract kind source content =
      ({ s with spans := s.spans ++ [⟨s.next, kind, content⟩], next := s.next + 1 }, placeholder s.next) := by
  have plain := needs_placeholderForm.segments free
  have none : placeholdersIn content = [] := by simp [placeholdersIn, plain]
  have same : Store.expand s.spans content = (s.spans, content) := by
    rw [Store.expand, plain, substitute_map_plain]
  have taken : s.holdsRendered content = false := by rw [Store.holdsRendered, none]; rfl
  rw [Store.extract, taken, if_neg (by simp), Store.add, same, code]
  rfl

theorem mem_blockContent {name : Text} {inside : List Token} (named : isEnvironmentName name = true)
    (lawful : ∀ t ∈ inside, t.isLawful = true) :
    ∀ c ∈ blockContent name (write inside), isAsciiDigit c = false := by
  intro c hc
  simp only [blockContent, List.mem_append, List.mem_cons] at hc
  rcases hc with (hc | rfl | hc) | rfl | hc
  · exact (Token.mem_text (t := .opening name) named hc).2
  · decide
  · obtain ⟨before, after, text, _⟩ := Text.exists_trim_eq (write inside)
    have whole : c ∈ write inside := by
      rw [text]
      exact List.mem_append_left _ (List.mem_append_right _ hc)
    exact (mem_write lawful whole).2
  · decide
  · exact (Token.mem_text (t := .closing name) named hc).2

/-- No environment begins in an end. -/
theorem environment_closing {name : Text} (named : isEnvironmentName name = true) (previous : Option Char)
    {u : Text} (suffix : u <:+ endText name) (ne : u ≠ []) (t : Text) : environment previous (u ++ t) = none := by
  obtain ⟨c, cs, text, free⟩ := Token.exists_text (t := .closing name) named
  rw [Token.text] at text
  rw [text] at suffix
  rcases List.suffix_cons_iff.1 suffix with rfl | inner
  · -- An end begins otherwise than a beginning.
    have absent : Text.after? "\\begin\x7b".toList (endText name ++ t) = none := rfl
    rw [← text, environment, absent]
    rfl
  · cases u with
    | nil => exact absurd rfl ne
    | cons d u =>
      refine environment_of_ne ?_ _
      rintro rfl
      exact free (inner.subset List.mem_cons_self)

/-- Environments are set aside as the tokens tell. -/
theorem Carries.substitute_environment {i : Nat} {ts : List Token} {es : List Entry} {t : Text}
    (carries : Carries i ts es t) (lawful : ∀ t ∈ ts, t.isLawful = true) {s : Store} (next : s.next = i)
    (code : s.code = []) (previous : Option Char) :
    substitute (fun s source content => s.extract .block source content) s
        (segmentsAfter environment previous (write ts)) =
      ({ s with spans := s.spans ++ es, next := i + es.length }, t) := by
  induction carries generalizing s previous with
  | nil i =>
    subst next
    simp [write, segmentsAfter, substitute]
  | @char i c ts es t more ih =>
    rw [List.forall_mem_cons] at lawful
    have other : c ≠ '\\' := by
      have prose := lawful.1
      simp only [Token.isLawful, isUnmarked, Bool.and_eq_true, decide_eq_true_eq] at prose
      exact prose.1.1
    rw [write_cons, Token.text, List.singleton_append, segmentsAfter_of_none (environment_of_ne other _), substitute,
      ih lawful.2 next code]
  | @closing i name ts es t more ih =>
    rw [List.forall_mem_cons] at lawful
    rw [write_cons, Token.text,
      segmentsAfter_append fun previous u suffix ne => environment_closing lawful.1 previous suffix ne _,
      substitute_plain, ih lawful.2 next code]
  | @block i name ts inside after es t split ne first more ih =>
    subst split next
    rw [List.forall_mem_cons, List.forall_mem_append, List.forall_mem_cons] at lawful
    obtain ⟨named, inner, _, rest⟩ := lawful
    have found := environment_write named inner first ne previous after
    have text : write (.opening name :: (inside ++ .closing name :: after)) =
        write (.opening name :: (inside ++ [.closing name])) ++ write after := by
      rw [← write_append]
      simp
    have nonempty : write (.opening name :: (inside ++ [.closing name])) ≠ [] := by
      obtain ⟨c, cs, head, _⟩ := Token.exists_text (t := .opening name) named
      rw [write_cons, head]
      simp
    rw [text] at found ⊢
    rw [segmentsAfter_of_some nonempty found rfl, substitute, extract_of_digitless code (mem_blockContent named inner)]
    have more := ih rest (s := ⟨s.spans ++ [⟨s.next, .block, blockContent name (write inside)⟩], s.next + 1, s.code⟩)
      rfl code (lastChar previous (write (.opening name :: (inside ++ [.closing name]))))
    simp only [more, List.append_assoc, List.singleton_append, List.length_cons, Nat.add_assoc, Nat.add_comm 1]

theorem Carries.unmarked {i : Nat} {ts : List Token} {es : List Entry} {t : Text} (carries : Carries i ts es t)
    (lawful : ∀ t ∈ ts, t.isLawful = true) : ∀ c ∈ t, isOtherMark c = false := by
  induction carries with
  | nil i => simp
  | char more ih =>
    rw [List.forall_mem_cons] at lawful ⊢
    exact ⟨(Token.mem_text lawful.1 (List.mem_singleton_self _)).1, ih lawful.2⟩
  | closing more ih =>
    rw [List.forall_mem_cons] at lawful
    rw [List.forall_mem_append]
    exact ⟨fun c hc => (Token.mem_text lawful.1 hc).1, ih lawful.2⟩
  | @block i name ts inside after es t split ne first more ih =>
    subst split
    rw [List.forall_mem_cons, List.forall_mem_append, List.forall_mem_cons] at lawful
    rw [List.forall_mem_append]
    refine ⟨fun c hc => Bool.eq_false_iff.2 fun mark => ?_, ih lawful.2.2.2⟩
    have marks : otherMarks.all isMark = true := by decide
    have here := List.all_eq_true.1 marks c (by simpa [isOtherMark] using mark)
    have letters := isMark_eq_false_of_mem_word (p := .span i) rfl c hc
    rw [here] at letters
    simp at letters

theorem Carries.protect {ts : List Token} {es : List Entry} {t : Text} (carries : Carries 0 ts es t)
    (lawful : ∀ t ∈ ts, t.isLawful = true) (soft : Bool) : protect soft (write ts) = (t, es) := by
  have environments := carries.substitute_environment lawful (s := Store.empty) rfl rfl none
  exact protect_of_unmarked (fun c hc => (mem_write lawful hc).1) environments rfl (carries.unmarked lawful) soft

/-! ## Beginnings and ends -/

def Token.rise : Token → Int
  | char _ => 0
  | opening _ => 1
  | closing _ => -1

/-- How many more beginnings than ends there are. -/
def height : List Token → Int
  | [] => 0
  | t :: ts => t.rise + height ts

/-- Heights add up. -/
theorem height_append (ts us : List Token) : height (ts ++ us) = height ts + height us := by
  induction ts with
  | nil => simp [height]
  | cons t ts ih =>
    rw [List.cons_append, height, height, ih]
    omega

/-- There are as many ends as beginnings, and nowhere more. -/
structure Level (ts : List Token) : Prop where
  whole : height ts = 0
  starts : ∀ start, start <+: ts → 0 ≤ height start

theorem exists_of_prefix_append {start ts us : List Token} (h : start <+: ts ++ us) :
    start <+: ts ∨ ∃ more, start = ts ++ more ∧ more <+: us := by
  obtain ⟨rest, h⟩ := h
  rcases List.append_eq_append_iff.1 h with ⟨more, hts, _⟩ | ⟨more, hstart, hus⟩
  · exact .inl ⟨more, hts.symm⟩
  · exact .inr ⟨more, hstart, rest, hus.symm⟩

namespace Level

theorem nil : Level [] := ⟨rfl, fun start h => by rw [List.prefix_nil.1 h]; exact Int.le_refl 0⟩

theorem append {ts us : List Token} (hts : Level ts) (hus : Level us) : Level (ts ++ us) := by
  refine ⟨by rw [height_append, hts.whole, hus.whole]; rfl, fun start h => ?_⟩
  rcases exists_of_prefix_append h with inner | ⟨more, rfl, inner⟩
  · exact hts.starts start inner
  · have := hus.starts more inner
    rw [height_append, hts.whole]
    omega

theorem char (c : Char) : Level [.char c] := by
  refine ⟨rfl, fun start h => ?_⟩
  rcases List.prefix_cons_iff.1 h with rfl | ⟨rest, rfl, inner⟩
  · exact Int.le_refl 0
  · rw [List.prefix_nil.1 inner]
    exact Int.le_refl 0

theorem block {ts : List Token} (level : Level ts) (name : Text) :
    Level (.opening name :: (ts ++ [.closing name])) := by
  constructor
  · rw [height, height_append, level.whole]
    rfl
  · intro start h
    rcases List.prefix_cons_iff.1 h with rfl | ⟨rest, rfl, inner⟩
    · exact Int.le_refl 0
    · rw [height, Token.rise]
      rcases exists_of_prefix_append inner with inner | ⟨more, rfl, last⟩
      · have := level.starts rest inner
        omega
      · rw [height_append, level.whole]
        rcases List.prefix_cons_iff.1 last with rfl | ⟨rest, rfl, nothing⟩
        · decide
        · rw [List.prefix_nil.1 nothing, height, height, Token.rise]
          decide

theorem of_forall {ps : List Part} (h : ∀ p ∈ ps, Level p.tokens) : Level (tokensAll ps) := by
  induction ps with
  | nil => exact Level.nil
  | cons p ps ih =>
    rw [List.forall_mem_cons] at h
    rw [tokensAll]
    exact h.1.append (ih h.2)

end Level

/-- Each part closes what it opens. -/
theorem Part.Lawful.level {p : Part} (lawful : p.Lawful) : Level p.tokens := by
  induction lawful with
  | char _ =>
    rw [Part.tokens]
    exact Level.char _
  | @block name body _ _ _ ih =>
    rw [Part.tokens]
    exact (Level.of_forall ih).block name

/-- Every environment that begins is also ended, and is not empty. -/
def Closes (ts : List Token) : Prop :=
  ∀ name after, .opening name :: after <:+ ts →
    ∃ body rest, body ≠ [] ∧ Level body ∧ after = body ++ .closing name :: rest

namespace Closes

theorem of_suffix {ts us : List Token} (h : Closes ts) (suffix : us <:+ ts) : Closes us :=
  fun name after here => h name after (here.trans suffix)

theorem append {ts us : List Token} (hts : Closes ts) (hus : Closes us) : Closes (ts ++ us) := by
  rintro name after ⟨before, h⟩
  rcases List.append_eq_append_iff.1 h with ⟨more, left, right⟩ | ⟨more, _, right⟩
  · cases more with
    | nil => exact hus name after ⟨[], right⟩
    | cons t more =>
      obtain ⟨rfl, rfl⟩ := List.cons.inj right
      obtain ⟨body, rest, ne, level, rfl⟩ := hts name more ⟨before, left.symm⟩
      exact ⟨body, rest ++ us, ne, level, by simp⟩
  · exact hus name after ⟨more, right.symm⟩

theorem nil : Closes [] := fun name after h => by simp at h

theorem single {t : Token} (other : ∀ name, t ≠ .opening name) : Closes [t] := by
  intro name after h
  rcases List.suffix_cons_iff.1 h with h | h
  · exact absurd (List.cons.inj h).1.symm (other name)
  · simp at h

theorem block {ts : List Token} (h : Closes ts) (level : Level ts) (ne : ts ≠ []) (name : Text) :
    Closes (.opening name :: (ts ++ [.closing name])) := by
  intro other after here
  rcases List.suffix_cons_iff.1 here with here | here
  · obtain ⟨same, rfl⟩ := List.cons.inj here
    obtain rfl := Token.opening.inj same
    exact ⟨ts, [], ne, level, rfl⟩
  · exact h.append (single (by simp)) other after here

theorem of_forall {ps : List Part} (h : ∀ p ∈ ps, Closes p.tokens) : Closes (tokensAll ps) := by
  induction ps with
  | nil => exact Closes.nil
  | cons p ps ih =>
    rw [List.forall_mem_cons] at h
    rw [tokensAll]
    exact h.1.append (ih h.2)

end Closes

theorem tokensAll_ne_nil {ps : List Part} (ne : ps ≠ []) : tokensAll ps ≠ [] := by
  cases ps with
  | nil => exact absurd rfl ne
  | cons p ps => cases p <;> simp [tokensAll, Part.tokens]

/-- Each beginning in a part has its end in the part. -/
theorem Part.Lawful.closes {p : Part} (lawful : p.Lawful) : Closes p.tokens := by
  induction lawful with
  | char _ =>
    rw [Part.tokens]
    exact Closes.single (by simp)
  | @block name body _ ne inside ih =>
    rw [Part.tokens]
    exact (Closes.of_forall ih).block (Level.of_forall fun p hp => (inside p hp).level) (tokensAll_ne_nil ne) name

/-- What is not empty and level does not begin with an end. -/
theorem Level.ne_closing {name : Text} {body rest inside after : List Token} (level : Level body) (ne : body ≠ [])
    (h : body ++ rest = inside ++ .closing name :: after) : inside ≠ [] := by
  rintro rfl
  cases body with
  | nil => exact ne rfl
  | cons t body =>
    obtain ⟨rfl, -⟩ := List.cons.inj h
    have := level.starts [.closing name] ⟨body, rfl⟩
    rw [height, height, Token.rise] at this
    exact absurd this (by decide)

/-- What closes can be set aside, by induction over the length. -/
theorem Closes.exists_carries {ts : List Token} (closes : Closes ts) (i : Nat) : ∃ es t, Carries i ts es t := by
  induction length : ts.length using Nat.strongRecOn generalizing ts i with | ind n ih => ?_
  cases ts with
  | nil => exact ⟨[], [], .nil i⟩
  | cons t ts =>
    have smaller : ts.length < n := by simp [← length]
    have rest := closes.of_suffix (List.suffix_cons t ts)
    cases t with
    | char c =>
      obtain ⟨es, t, more⟩ := ih _ smaller rest i rfl
      exact ⟨es, _, .char more⟩
    | closing name =>
      obtain ⟨es, t, more⟩ := ih _ smaller rest i rfl
      exact ⟨es, _, .closing more⟩
    | opening name =>
      obtain ⟨body, left, ne, level, text⟩ := closes name ts (List.suffix_refl _)
      have ends : .closing name ∈ ts := by simp [text]
      obtain ⟨inside, after, split, first⟩ := List.eq_append_cons_of_mem ends
      have shorter : after.length < n := by
        have := congrArg List.length split
        rw [List.length_append, List.length_cons] at this
        omega
      have suffix : after <:+ ts := ⟨inside ++ [.closing name], by simp [split]⟩
      obtain ⟨es, t, more⟩ := ih _ shorter (rest.of_suffix suffix) (i + 1) rfl
      exact ⟨_, _, .block split (level.ne_closing ne (text ▸ split)) first more⟩

/-- Where there are more ends than beginnings, an end is left over. -/
theorem Carries.exists_end {i : Nat} {ts : List Token} {es : List Entry} {t : Text} (carries : Carries i ts es t)
    (closes : Closes ts) (low : height ts < 0) : "\\end".toList <:+: t := by
  induction carries with
  | nil i => exact absurd low (by decide)
  | char more ih =>
    refine (ih (closes.of_suffix (List.suffix_cons _ _)) ?_).trans (List.suffix_cons _ _).isInfix
    rw [height, Token.rise] at low
    omega
  | @closing i name ts es t more ih => exact ⟨[], '\x7b' :: (name ++ ['}'] ++ t), by simp [endText_eq]⟩
  | @block i name ts inside after es t split ne first more ih =>
    have suffix : after <:+ ts := ⟨inside ++ [.closing name], by simp [split]⟩
    obtain ⟨body, rest, _, level, text⟩ := closes name ts (List.suffix_refl _)
    -- What is set aside lies in the environment that begins here.
    obtain ⟨more', hbody, _⟩ := exists_of_append_eq_append_cons first (split.symm.trans text)
    have inner := level.starts inside ⟨more', hbody.symm⟩
    refine (ih (closes.of_suffix (suffix.trans (List.suffix_cons _ _))) ?_).trans (List.suffix_append _ _).isInfix
    rw [split, height, height_append, height, Token.rise, Token.rise] at low
    omega

/-! ## Outermost environments -/

section Parts

variable {ps : List Part}

/-- Where no environment holds one of its own name, the outermost ones are set aside whole. -/
theorem carries_of_namedApart (lawful : ∀ p ∈ ps, p.Lawful) (apart : NamedApart ps) (i : Nat) :
    Carries i (tokensAll ps) (entries i ps) (carried i ps) := by
  induction ps generalizing i with
  | nil => exact .nil i
  | cons p ps ih =>
    rw [List.forall_mem_cons] at lawful
    rw [namedApart_cons] at apart
    cases p with
    | char c => exact .char (ih lawful.2 apart.2 i)
    | block name body =>
      have own : .closing name ∉ tokensAll body := by
        rw [closing_mem_tokensAll]
        exact apart.1 name body rfl
      cases lawful.1 with
      | block _ ne _ =>
        refine .block ?_ (tokensAll_ne_nil ne) own (ih lawful.2 apart.2 (i + 1))
        simp

theorem backslash_not_mem_carried (lawful : ∀ p ∈ ps, p.Lawful) (i : Nat) : '\\' ∉ carried i ps := by
  induction ps generalizing i with
  | nil => simp [carried]
  | cons p ps ih =>
    rw [List.forall_mem_cons] at lawful
    cases p with
    | char c =>
      cases lawful.1 with
      | char prose =>
        simp only [isUnmarked, Bool.and_eq_true, decide_eq_true_eq] at prose
        rw [carried, List.mem_cons, not_or]
        exact ⟨prose.1.1.symm, ih lawful.2 i⟩
    | block name body =>
      rw [carried, List.mem_append, not_or]
      refine ⟨fun h => ?_, ih lawful.2 (i + 1)⟩
      exact absurd (isMark_eq_false_of_mem_word (p := .span i) rfl _ h) (by decide)

/-- Two cuts at the first end of a name are one. -/
theorem eq_of_first_closing {name : Text} {body rest inside after : List Token} (own : .closing name ∉ body)
    (first : .closing name ∉ inside) (h : body ++ .closing name :: rest = inside ++ .closing name :: after) :
    after = rest := by
  obtain ⟨more, hinside, hrest⟩ := exists_of_append_eq_append_cons own h
  cases more with
  | nil => exact (List.cons.inj hrest).2.symm
  | cons t more =>
    obtain ⟨rfl, -⟩ := List.cons.inj hrest
    exact absurd (by simp [hinside]) first

/-- An environment with its own name inside is cut too early, and leaves more ends than beginnings. -/
theorem height_of_repeated {name : Text} {body rest inside after : List Token} (level : Level body)
    (own : .closing name ∈ body) (first : .closing name ∉ inside) (flat : height rest = 0)
    (h : body ++ .closing name :: rest = inside ++ .closing name :: after) : height after < 0 := by
  obtain ⟨more, hbody, hafter⟩ := exists_of_append_eq_append_cons first h.symm
  cases more with
  | nil =>
    rw [hbody, List.append_nil] at own
    exact absurd own first
  | cons t more =>
    rw [List.cons_append] at hafter
    obtain ⟨rfl, rfl⟩ := List.cons.inj hafter
    have start := level.starts (inside ++ [.closing name]) ⟨more, by simp [hbody]⟩
    have whole := level.whole
    rw [hbody, height_append, height, Token.rise] at whole
    rw [height_append, height, height, Token.rise] at start
    rw [height_append, height, flat, Token.rise]
    omega

theorem Carries.exists_end_of_not_namedApart (lawful : ∀ p ∈ ps, p.Lawful) {i : Nat} {es : List Entry} {t : Text}
    (carries : Carries i (tokensAll ps) es t) (repeated : ¬NamedApart ps) : "\\end".toList <:+: t := by
  induction ps generalizing i es t with
  | nil => exact absurd (by simp [NamedApart]) repeated
  | cons p ps ih =>
    have closes : Closes (tokensAll (p :: ps)) := Closes.of_forall fun p hp => (lawful p hp).closes
    rw [List.forall_mem_cons] at lawful
    rw [namedApart_cons] at repeated
    cases p with
    | char c =>
      have later : ¬NamedApart ps := fun apart => repeated ⟨by simp, apart⟩
      rw [tokensAll, Part.tokens, List.singleton_append] at carries
      cases carries with
      | char more => exact (ih lawful.2 more later).trans (List.suffix_cons _ _).isInfix
    | block name body =>
      cases lawful.1 with
      | block _ _ inner =>
        have level : Level (tokensAll body) := Level.of_forall fun p hp => (inner p hp).level
        have flat : Level (tokensAll ps) := Level.of_forall fun p hp => (lawful.2 p hp).level
        have text : tokensAll (.block name body :: ps) =
            .opening name :: (tokensAll body ++ .closing name :: tokensAll ps) := by
          simp [tokensAll, Part.tokens]
        rw [text] at carries closes
        generalize whole : tokensAll body ++ .closing name :: tokensAll ps = ts at carries closes
        cases carries with
        | @block _ _ _ inside after es t split ne first more =>
          have cut := whole.trans split
          refine List.IsInfix.trans ?_ (List.suffix_append _ _).isInfix
          by_cases own : .closing name ∈ tokensAll body
          · have suffix : after <:+ ts := ⟨inside ++ [.closing name], by simp [split]⟩
            have low := height_of_repeated level own first flat.whole cut
            exact more.exists_end (closes.of_suffix (suffix.trans (List.suffix_cons _ _))) low
          · obtain rfl := eq_of_first_closing own first cut
            refine ih lawful.2 more fun apart => repeated ⟨?_, apart⟩
            rintro name' body' h
            obtain ⟨rfl, rfl⟩ := Part.block.inj h
            rwa [← closing_mem_tokensAll]

/-- In a text of nested environments every outermost one becomes one formula with all that stands in it, and
neither a beginning nor an end is left, exactly if none has its own name inside. -/
theorem protect_nested_iff (lawful : ∀ p ∈ ps, p.Lawful) (soft : Bool) :
    (protect soft (writeAll ps) = (carried 0 ps, entries 0 ps) ↔ NamedApart ps) ∧
      (¬"\\begin".toList <:+: (protect soft (writeAll ps)).1 ∧ ¬"\\end".toList <:+: (protect soft (writeAll ps)).1 ↔
        NamedApart ps) := by
  have tokens := isLawful_of_mem_tokensAll lawful
  have whole (apart : NamedApart ps) : protect soft (writeAll ps) = (carried 0 ps, entries 0 ps) :=
    (carries_of_namedApart lawful apart 0).protect tokens soft
  have left (repeated : ¬NamedApart ps) : "\\end".toList <:+: (protect soft (writeAll ps)).1 := by
    obtain ⟨es, t, carries⟩ := (Closes.of_forall fun p hp => (lawful p hp).closes : Closes (tokensAll ps)).exists_carries 0
    rw [writeAll, carries.protect tokens soft]
    exact carries.exists_end_of_not_namedApart lawful repeated
  have free {command : Text} (h : '\\' ∈ command) : ¬command <:+: carried 0 ps :=
    fun found => backslash_not_mem_carried lawful 0 (found.subset h)
  constructor
  · refine ⟨fun all => Classical.byContradiction fun repeated => ?_, whole⟩
    have found := left repeated
    rw [all] at found
    exact free (by decide) found
  · refine ⟨fun none => Classical.byContradiction fun repeated => none.2 (left repeated), fun apart => ?_⟩
    rw [whole apart]
    exact ⟨free (by decide), free (by decide)⟩

end Parts

/-- An environment with two of one other name inside each other, and one beside it. -/
def nestedSample : List Part :=
  [.char 'x', .block ['a'] [.block ['b', '*'] [.char 'y', .block ['b', '*'] [.char 'z']]], .char ' ',
    .block ['b', '*'] [.char 'w']]

theorem lawful_nestedSample : ∀ p ∈ nestedSample, p.Lawful := by
  have char {c : Char} (prose : isUnmarked c = true) : ∀ p ∈ [Part.char c], p.Lawful := by
    simpa using Part.Lawful.char prose
  have inner : (Part.block ['b', '*'] [.char 'z']).Lawful := .block (by decide) (by simp) (char (by decide))
  have middle : (Part.block ['b', '*'] [.char 'y', .block ['b', '*'] [.char 'z']]).Lawful := by
    refine .block (by decide) (by simp) ?_
    simpa using ⟨.char (by decide), inner⟩
  simp only [nestedSample, List.forall_mem_cons]
  refine ⟨.char (by decide), .block (by decide) (by simp) (by simpa using middle), .char (by decide),
    .block (by decide) (by simp) (char (by decide)), by simp⟩

/-- The two outermost environments are set aside, although the first has one with the name of the second inside. -/
theorem protect_nestedSample :
    (∀ p ∈ nestedSample, p.Lawful) ∧ NamedApart nestedSample ∧
      protect true (writeAll nestedSample) =
        ("x".toList ++ placeholder 0 ++ " ".toList ++ placeholder 1, entries 0 nestedSample) := by
  have apart : NamedApart nestedSample := by
    simp only [nestedSample, namedApart_cons]
    refine ⟨by simp, ?_, by simp, ?_, by simp [NamedApart]⟩
    · rintro name body h
      obtain ⟨rfl, rfl⟩ := Part.block.inj h
      decide
    · rintro name body h
      obtain ⟨rfl, rfl⟩ := Part.block.inj h
      decide
  have text : carried 0 nestedSample = "x".toList ++ placeholder 0 ++ " ".toList ++ placeholder 1 := by decide +kernel
  exact ⟨lawful_nestedSample, apart, text ▸ (protect_nested_iff lawful_nestedSample true).1.2 apart⟩

/-- An environment inside one of the same name ends them both, and the second end is left over. -/
theorem protect_repeated :
    protect true (writeAll [.block ['a'] [.block ['a'] [.char 'x']]]) =
      (placeholder 0 ++ endText ['a'], [⟨0, .block, blockContent ['a'] (beginText ['a'] ++ ['x'])⟩]) := by
  have split : tokensAll [.block ['a'] [.char 'x']] ++ [.closing ['a']] =
      [.opening ['a'], .char 'x'] ++ .closing ['a'] :: [.closing ['a']] := by decide
  have carries : Carries 0 (tokensAll [.block ['a'] [.block ['a'] [.char 'x']]])
      [⟨0, .block, blockContent ['a'] (write [.opening ['a'], .char 'x'])⟩] (placeholder 0 ++ (endText ['a'] ++ [])) :=
    .block split (by simp) (by decide) (.closing (.nil 1))
  have lawful : (tokensAll [.block ['a'] [.block ['a'] [.char 'x']]]).all Token.isLawful = true := by decide
  exact carries.protect (List.all_eq_true.1 lawful) true

end Nested

end OfficeFormula.Span
