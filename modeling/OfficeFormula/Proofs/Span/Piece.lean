import OfficeFormula.Span.Protect

/-!
# Working texts

While formulas are set aside, a text holds characters and placeholders side by side. A `Piece` is
one or the other, and `spell` writes pieces out. Two facts carry all that follows.

* A *mark* is a character that no placeholder has. In a spelling it is a piece of its own, so a text
  that is cut before or after a mark is cut between pieces (`exists_of_spell_eq_append_mark`).
* In a *clean* list of pieces the characters nowhere make up the beginning of a placeholder. A
  search for placeholders then finds those that are pieces, and nothing else
  (`segments_placeholderForm_spell`).
-/

namespace OfficeFormula.Span

/-! ## Digits and marks -/

/-- A fact about the characters of a fixed text, in a form that can be evaluated. -/
theorem forall_not_of_all {p : Char → Bool} {t : Text} (h : t.all (!p ·) = true) :
    ∀ c ∈ t, p c = false := by
  intro c hc
  have := List.all_eq_true.1 h c hc
  simpa using this

/-- A character that no placeholder has. -/
def isMark (c : Char) : Bool := !(isAsciiLetter c || isAsciiDigit c)

/-- Blanks are marks, so no placeholder has one. -/
theorem isMark_of_isBlank {c : Char} (blank : isBlank c = true) : isMark c = true := by
  obtain ⟨r, hr, low, high⟩ := inRanges_iff.1 blank
  have outside : ∀ r ∈ blankRanges, r.2 < 48 ∨ (122 < r.1 ∧ r.1 ≤ r.2) := by decide
  have bounds := outside r hr
  simp only [isMark, isAsciiLetter, isAsciiDigit, Bool.not_eq_true', Bool.or_eq_false_iff,
    Bool.and_eq_false_iff, decide_eq_false_iff_not, Char.le_def, UInt32.le_iff_toNat_le]
  change c.val.toNat ≤ r.2 at high
  change r.1 ≤ c.val.toNat at low
  simp only [show 'a'.val.toNat = 97 from rfl, show 'z'.val.toNat = 122 from rfl,
    show 'A'.val.toNat = 65 from rfl, show 'Z'.val.toNat = 90 from rfl,
    show '0'.val.toNat = 48 from rfl, show '9'.val.toNat = 57 from rfl]
  omega

theorem isMark_of_isTabOrSpace {c : Char} (h : isTabOrSpace c = true) : isMark c = true := by
  simp only [isTabOrSpace, Bool.or_eq_true, beq_iff_eq] at h
  rcases h with rfl | rfl <;> decide

theorem isAsciiDigit_eq_false_of_isMark {c : Char} (mark : isMark c = true) :
    isAsciiDigit c = false := by
  simp only [isMark, Bool.not_eq_true', Bool.or_eq_false_iff] at mark
  exact mark.2

theorem isAsciiDigit_of_mem_decimal {c : Char} {i : Nat} (h : c ∈ decimal i) :
    isAsciiDigit c = true := by
  have digit := Nat.isDigit_of_mem_toDigits (by decide) (by decide) h
  simp only [Char.isDigit, Bool.and_eq_true, decide_eq_true_eq] at digit
  simpa [isAsciiDigit, Char.le_def] using digit

theorem decimal_ne_nil (i : Nat) : decimal i ≠ [] := Nat.toDigits_ne_nil

theorem decimal_injective {i j : Nat} (h : decimal i = decimal j) : i = j := by
  have := congrArg (Nat.ofDigitChars 10 · 0) h
  simpa [decimal, Nat.ofDigitChars_ten_toDigits] using this

/-- The number of a placeholder can be told from it. -/
theorem placeholder_injective {i j : Nat} (h : placeholder i = placeholder j) : i = j := by
  apply decimal_injective
  simpa [placeholder] using h

/-! ## Pieces -/

/-- A part of a working text. -/
inductive Piece where
  | char (c : Char)
  /-- The placeholder of the code with this number. -/
  | code (i : Nat)
  /-- The placeholder of the formula with this number. -/
  | span (i : Nat)
deriving DecidableEq

namespace Piece

/-- The piece as it is written. -/
def text : Piece → Text
  | char c => [c]
  | code i => codePlaceholder i
  | span i => placeholder i

/-- The piece is a placeholder. -/
def isWord : Piece → Bool
  | char _ => false
  | code _ | span _ => true

end Piece

/-- The characters of a placeholder: its number between two fixed stretches of letters. -/
theorem text_of_isWord {p : Piece} (word : p.isWord = true) :
    ∃ middle i, p.text = placeholderStart ++ middle ++ decimal i ++ placeholderEnd ∧
      (middle = [] ∨ middle = "CODE".toList) := by
  cases p with
  | char c => simp [Piece.isWord] at word
  | code i => exact ⟨"CODE".toList, i, rfl, .inr rfl⟩
  | span i => exact ⟨[], i, by simp [Piece.text, placeholder], .inl rfl⟩

theorem isMark_eq_false_of_mem_word {p : Piece} (word : p.isWord = true) :
    ∀ c ∈ p.text, isMark c = false := by
  obtain ⟨middle, i, text, fixed⟩ := text_of_isWord word
  have start : ∀ c ∈ placeholderStart, isMark c = false := forall_not_of_all (by decide)
  have code : ∀ c ∈ "CODE".toList, isMark c = false := forall_not_of_all (by decide)
  have stop : ∀ c ∈ placeholderEnd, isMark c = false := forall_not_of_all (by decide)
  intro c hc
  rw [text] at hc
  simp only [List.mem_append] at hc
  rcases hc with ((hc | hc) | hc) | hc
  · exact start c hc
  · rcases fixed with rfl | rfl
    · simp at hc
    · exact code c hc
  · simp [isMark, isAsciiDigit_of_mem_decimal hc]
  · exact stop c hc

/-- A placeholder has a digit in it. -/
theorem exists_digit_mem_word {p : Piece} (word : p.isWord = true) :
    ∃ c ∈ p.text, isAsciiDigit c = true := by
  obtain ⟨middle, i, text, _⟩ := text_of_isWord word
  obtain ⟨c, more, hd⟩ := List.exists_cons_of_ne_nil (decimal_ne_nil i)
  refine ⟨c, ?_, isAsciiDigit_of_mem_decimal (i := i) (by simp [hd])⟩
  simp [text, hd]

/-- A placeholder begins with an `M` and has no other. -/
theorem exists_word_eq_cons {p : Piece} (word : p.isWord = true) :
    ∃ more, p.text = 'M' :: more ∧ 'M' ∉ more := by
  obtain ⟨middle, i, text, fixed⟩ := text_of_isWord word
  have digits : 'M' ∉ decimal i := by
    intro h
    exact absurd (isAsciiDigit_of_mem_decimal h) (by decide)
  refine ⟨"ATHPASTE".toList ++ middle ++ decimal i ++ placeholderEnd, by rw [text]; rfl, ?_⟩
  have stop : 'M' ∉ placeholderEnd := by decide
  rcases fixed with rfl | rfl <;> simp [digits, stop]

theorem Piece.text_ne_nil (p : Piece) : p.text ≠ [] := by
  cases hp : p.isWord with
  | true =>
    obtain ⟨more, text, _⟩ := exists_word_eq_cons hp
    simp [text]
  | false => cases p <;> simp_all [Piece.isWord, Piece.text]

/-- The text that pieces make up. -/
def spell (ps : List Piece) : Text := ps.flatMap Piece.text

@[simp] theorem spell_nil : spell [] = [] := rfl

@[simp] theorem spell_cons (p : Piece) (ps : List Piece) : spell (p :: ps) = p.text ++ spell ps := rfl

@[simp] theorem spell_append (ps qs : List Piece) : spell (ps ++ qs) = spell ps ++ spell qs := by
  simp [spell]

@[simp] theorem spell_map_char (t : Text) : spell (t.map .char) = t := by
  induction t with
  | nil => rfl
  | cons c cs ih => simp [Piece.text, ih]

/-- The numbers of the formulas whose placeholders are among the pieces. -/
def spanNumbers (ps : List Piece) : List Nat :=
  ps.filterMap fun
    | .span i => some i
    | _ => none

@[simp] theorem spanNumbers_nil : spanNumbers [] = [] := rfl

@[simp] theorem spanNumbers_span (i : Nat) (ps : List Piece) :
    spanNumbers (.span i :: ps) = i :: spanNumbers ps := rfl

@[simp] theorem spanNumbers_code (i : Nat) (ps : List Piece) :
    spanNumbers (.code i :: ps) = spanNumbers ps := rfl

@[simp] theorem spanNumbers_char (c : Char) (ps : List Piece) :
    spanNumbers (.char c :: ps) = spanNumbers ps := rfl

@[simp] theorem spanNumbers_append (ps qs : List Piece) :
    spanNumbers (ps ++ qs) = spanNumbers ps ++ spanNumbers qs := by
  simp [spanNumbers]

@[simp] theorem spanNumbers_map_char (t : Text) : spanNumbers (t.map .char) = [] := by
  simp [spanNumbers]

theorem mem_spanNumbers {ps : List Piece} {i : Nat} : i ∈ spanNumbers ps ↔ .span i ∈ ps := by
  simp only [spanNumbers, List.mem_filterMap]
  constructor
  · rintro ⟨p, hp, hi⟩
    cases p <;> simp_all
  · intro h
    exact ⟨_, h, rfl⟩

/-! ## Cutting between pieces -/

/-- A cut before an item that `xs` does not have lies behind `xs`. -/
theorem exists_of_append_eq_append_cons {α : Type} {xs ys us vs : List α} {a : α} (ha : a ∉ xs)
    (h : xs ++ ys = us ++ a :: vs) : ∃ ws, us = xs ++ ws ∧ ys = ws ++ a :: vs := by
  rcases List.append_eq_append_iff.1 h with ⟨ws, hus, hys⟩ | ⟨ws, hxs, hvs⟩
  · exact ⟨ws, hus, hys⟩
  · cases ws with
    | nil => exact ⟨[], by simpa using hxs.symm, by simpa using hvs.symm⟩
    | cons w ws =>
      simp only [List.cons_append, List.cons.injEq] at hvs
      exact absurd (by simp [hxs, hvs.1]) ha

/-- An item that stands alone in what it comes from cuts the whole there. -/
theorem exists_of_flatMap_eq_append_cons {α β : Type} {f : α → List β} {xs : List α} {b : β}
    (alone : ∀ x ∈ xs, b ∈ f x → f x = [b]) {us vs : List β} (h : xs.flatMap f = us ++ b :: vs) :
    ∃ as x cs, xs = as ++ x :: cs ∧ f x = [b] ∧ as.flatMap f = us ∧ cs.flatMap f = vs := by
  induction xs generalizing us with
  | nil => simp at h
  | cons x xs ih =>
    rw [List.flatMap_cons] at h
    have rest {us : List β} (h : xs.flatMap f = us ++ b :: vs) :=
      ih (fun y hy => alone y (List.mem_cons_of_mem _ hy)) h
    by_cases here : b ∈ f x
    · have single := alone x List.mem_cons_self here
      rw [single] at h
      cases us with
      | nil =>
        rw [List.nil_append, List.singleton_append, List.cons.injEq] at h
        exact ⟨[], x, xs, rfl, single, rfl, h.2⟩
      | cons u us =>
        rw [List.singleton_append, List.cons_append, List.cons.injEq] at h
        obtain ⟨as, y, cs, rfl, alone', rfl, rfl⟩ := rest h.2
        exact ⟨x :: as, y, cs, rfl, alone', by simp [single, h.1], rfl⟩
    · obtain ⟨ws, rfl, hws⟩ := exists_of_append_eq_append_cons here h
      obtain ⟨as, y, cs, rfl, alone', rfl, rfl⟩ := rest hws
      exact ⟨x :: as, y, cs, rfl, alone', by simp, rfl⟩

/-- A mark in a spelling is a piece of its own. -/
theorem exists_of_spell_eq_append_mark {ps : List Piece} {a b : Text} {c : Char}
    (mark : isMark c = true) (h : spell ps = a ++ c :: b) :
    ∃ us vs, ps = us ++ .char c :: vs ∧ spell us = a ∧ spell vs = b := by
  induction ps generalizing a with
  | nil => simp at h
  | cons p ps ih =>
    rw [spell_cons] at h
    cases hp : p.isWord with
    | true =>
      have hc : c ∉ p.text := fun hc => by simp [isMark_eq_false_of_mem_word hp c hc] at mark
      obtain ⟨a, rfl, hps⟩ := exists_of_append_eq_append_cons hc h
      obtain ⟨us, vs, rfl, rfl, rfl⟩ := ih hps
      exact ⟨p :: us, vs, rfl, rfl, rfl⟩
    | false =>
      cases p with
      | code i => simp [Piece.isWord] at hp
      | span i => simp [Piece.isWord] at hp
      | char d =>
        cases a with
        | nil =>
          simp only [Piece.text, List.cons_append, List.nil_append, List.cons.injEq] at h
          exact ⟨[], ps, by simp [h.1], rfl, h.2⟩
        | cons e a =>
          simp only [Piece.text, List.cons_append, List.nil_append, List.cons.injEq] at h
          obtain ⟨us, vs, rfl, rfl, rfl⟩ := ih h.2
          exact ⟨.char d :: us, vs, rfl, by simp [Piece.text, h.1], rfl⟩

/-- Text without digits is spelled by its characters. -/
theorem eq_map_char_of_spell {ps : List Piece} {a : Text}
    (plain : ∀ c ∈ a, isAsciiDigit c = false) (h : spell ps = a) : ps = a.map .char := by
  induction ps generalizing a with
  | nil => simp [← h]
  | cons p ps ih =>
    cases hp : p.isWord with
    | true =>
      obtain ⟨c, hc, digit⟩ := exists_digit_mem_word hp
      have := plain c (by rw [← h]; simp [hc])
      simp [digit] at this
    | false =>
      cases p with
      | code i => simp [Piece.isWord] at hp
      | span i => simp [Piece.isWord] at hp
      | char d =>
        subst h
        simp only [spell_cons, Piece.text, List.cons_append, List.nil_append, List.map_cons]
        rw [← ih (fun c hc => plain c (by simp [hc])) rfl]

/-- Text without an `M` at the head of a spelling is spelled by its characters. -/
theorem exists_of_spell_eq_append {ps : List Piece} {a b : Text} (plain : 'M' ∉ a)
    (h : spell ps = a ++ b) : ∃ qs, ps = a.map .char ++ qs ∧ spell qs = b := by
  induction a generalizing ps with
  | nil => exact ⟨ps, rfl, h⟩
  | cons c a ih =>
    simp only [List.mem_cons, not_or] at plain
    cases ps with
    | nil => simp at h
    | cons p ps =>
      cases hp : p.isWord with
      | true =>
        obtain ⟨more, text, _⟩ := exists_word_eq_cons hp
        simp only [spell_cons, text, List.cons_append, List.cons.injEq] at h
        exact absurd h.1 plain.1
      | false =>
        cases p with
        | code i => simp [Piece.isWord] at hp
        | span i => simp [Piece.isWord] at hp
        | char d =>
          simp only [spell_cons, Piece.text, List.cons_append, List.nil_append,
            List.cons.injEq] at h
          obtain ⟨qs, rfl, rfl⟩ := ih plain.2 h.2
          exact ⟨qs, by simp [h.1], rfl⟩

end OfficeFormula.Span
