import OfficeFormula.Markdown.PlainText
import OfficeFormula.Proofs.Span.Stash
import OfficeFormula.Proofs.Text.Search
import OfficeFormula.Proofs.Text.Words
import OfficeFormula.Span.Protect
import OfficeFormula.Text.Word

/-!
# Formulas in plain text

The rules that take the marks of Markdown away do not know where formulas are. A formula between prose stays as it
is in the plain text exactly if it has nothing in it that looks like a mark (`infix_plainText_iff`).

What looks like a mark is told without the rules (`FormatMark`). Every rule takes away more marking characters than it
puts in (`Takes`), and no rule gives any back to a later one. So a text in which some rule finds something ends up
with fewer of them, and a formula that was there before is not there any more.
-/

namespace OfficeFormula.Markdown

open OfficeFormula.Span

/-! ## Marks -/

/-- A letter, a space or a period. -/
def isProse (c : Char) : Bool := (isWordChar c && !isDecimalDigit c && c != '_') || c == ' ' || c == '.'

/-- A character that marks are made of and that no rule puts in. -/
def isMarking (c : Char) : Bool :=
  ['`', '!', '(', ')', '#', '*', '_', '~', '-', '+', '\n'].contains c || isDecimalDigit c

/-- What looks like a mark of Markdown, or like something marked. -/
inductive FormatMark : Text → Prop where
  | marked {c : Char} {words : Text} (mark : c ∈ ['`', '*', '_']) (ne : words ≠ []) (within : c ∉ words) :
      FormatMark (c :: words ++ [c])
  | codeBlock (code : Text) : FormatMark ("```".toList ++ code ++ "```".toList)
  | struck {words : Text} (ne : words ≠ []) (within : '~' ∉ words) :
      FormatMark ("~~".toList ++ words ++ "~~".toList)
  | link {words target : Text} (ne : words ≠ []) (closed : ']' ∉ words) (ne' : target ≠ [])
      (closed' : ')' ∉ target) : FormatMark ('[' :: words ++ ']' :: '(' :: target ++ [')'])
  | image {words target : Text} (closed : ']' ∉ words) (ne : target ≠ []) (closed' : ')' ∉ target) :
      FormatMark ('!' :: '[' :: words ++ ']' :: '(' :: target ++ [')'])
  | heading {blank : Char} (space : isTabOrSpace blank = true) : FormatMark ['#', blank]
  | bullet {indent : Text} {c blank : Char} (spaces : ∀ c ∈ indent, isTabOrSpace c = true)
      (mark : c ∈ ['-', '*', '+']) (space : isBlank blank = true) : FormatMark ('\n' :: indent ++ [c, blank])
  | number {indent digits : Text} {blank : Char} (spaces : ∀ c ∈ indent, isTabOrSpace c = true)
      (ne : digits ≠ []) (decimal : ∀ c ∈ digits, isDecimalDigit c = true) (space : isBlank blank = true) :
      FormatMark ('\n' :: indent ++ digits ++ ['.', blank])
  | emptyLines : FormatMark ['\n', '\n', '\n']

/-! ## What the rules find -/

/-- What a rule finds has a mark in it, and what it puts in has fewer marking characters. A mark that begins a line
begins with the newline before it. -/
def Takes (rule : Recogniser) : Prop :=
  ∀ ⦃previous t hit⦄, rule previous t = some hit → ∃ source rest, t = source ++ rest ∧
    hit.length = source.length ∧ hit.content.countP isMarking < source.countP isMarking ∧
    ∃ m, FormatMark m ∧ (m <:+: source ∨ atLineStart previous = true ∧ m <+: '\n' :: source)

theorem not_mem_takeWhile_ne (c : Char) (t : Text) : c ∉ t.takeWhile (· ≠ c) := fun h => by
  simpa using List.all_eq_true.1 List.all_takeWhile c h

theorem between_eq_some_iff {mark : String} {c : Char} {more : Text} (begins : mark.toList = c :: more)
    {previous : Option Char} {t : Text} {hit : Hit} :
    between mark c previous t = some hit ↔ ∃ words rest, t = mark.toList ++ words ++ mark.toList ++ rest ∧
      words ≠ [] ∧ c ∉ words ∧ hit = ⟨2 * mark.length + words.length, words⟩ := by
  simp only [between, Option.bind_eq_bind, Option.bind_eq_some_iff, Text.after?_eq_some_iff]
  constructor
  · rintro ⟨body, rfl, found⟩
    split at found
    · simp at found
    · next ne =>
      simp only [Option.bind_eq_some_iff, Text.after?_eq_some_iff, Option.pure_def, Option.some.injEq] at found
      obtain ⟨rest, closing, rfl⟩ := found
      refine ⟨_, rest, ?_, ne, not_mem_takeWhile_ne c body, rfl⟩
      rw [List.append_assoc, List.append_assoc, ← closing, ← Text.eq_takeWhile_append_drop]
  · rintro ⟨words, rest, rfl, ne, within, rfl⟩
    refine ⟨words ++ mark.toList ++ rest, by simp, ?_⟩
    have taken : (words ++ mark.toList ++ rest).takeWhile (· ≠ c) = words := by
      rw [begins, List.append_assoc, List.cons_append, Text.takeWhile_ne_append_cons within]
    simp only [taken, ne, if_false]
    rw [List.append_assoc, List.drop_left, Text.after?_eq_some_iff.2 rfl]
    rfl

/-- Text between marks loses the marks. -/
theorem takes_between {mark : String} {c : Char} {more : Text} (begins : mark.toList = c :: more)
    (marking : isMarking c = true) (isMark : ∀ {words : Text}, words ≠ [] → c ∉ words →
      ∃ m, FormatMark m ∧ m <:+: mark.toList ++ words ++ mark.toList) : Takes (between mark c) := by
  intro previous t hit found
  obtain ⟨words, rest, rfl, ne, within, rfl⟩ := (between_eq_some_iff begins).1 found
  obtain ⟨m, isMark, inside⟩ := isMark ne within
  refine ⟨mark.toList ++ words ++ mark.toList, rest, rfl, ?_, ?_, m, isMark, .inl inside⟩
  · simp only [List.length_append, String.length_toList]
    omega
  · have some : 0 < mark.toList.countP isMarking := by
      rw [begins, List.countP_cons_of_pos marking]
      exact Nat.succ_pos _
    simp only [List.countP_append]
    omega

theorem codeBlock_eq_some {previous : Option Char} {t : Text} {hit : Hit} (found : codeBlock previous t = some hit) :
    ∃ code rest, t = "```".toList ++ code ++ "```".toList ++ rest ∧
      hit = ⟨code.length + 6, "[code block]".toList⟩ := by
  simp only [codeBlock, Option.bind_eq_bind, Option.bind_eq_some_iff, Text.after?_eq_some_iff, Option.pure_def,
    Option.some.injEq] at found
  obtain ⟨body, rfl, code, stretch, rfl⟩ := found
  obtain ⟨closed, rfl, stops⟩ := Text.exists_of_before? stretch
  obtain ⟨rest, rfl⟩ := Text.startsWith_iff.1 stops
  exact ⟨code, rest, by simp, rfl⟩

theorem takes_codeBlock : Takes codeBlock := by
  intro previous t hit found
  obtain ⟨code, rest, rfl, rfl⟩ := codeBlock_eq_some found
  refine ⟨_, rest, rfl, ?_, ?_, _, .codeBlock code, .inl List.infix_rfl⟩
  · simp
  · have none : "[code block]".toList.countP isMarking = 0 := by decide
    have some : "```".toList.countP isMarking = 3 := by decide
    simp only [List.countP_append, none, some]
    omega

theorem targetLength?_eq_some_iff {t : Text} {n : Nat} :
    targetLength? t = some n ↔ ∃ target rest, t = '(' :: (target ++ ')' :: rest) ∧ target ≠ [] ∧ ')' ∉ target ∧
      n = target.length + 2 := by
  simp only [targetLength?, Option.bind_eq_bind, Option.bind_eq_some_iff, Text.after?_eq_some_iff]
  constructor
  · rintro ⟨body, rfl, found⟩
    by_cases closed : ')' ∈ body
    · obtain ⟨target, rest, rfl, within⟩ := List.eq_append_cons_of_mem closed
      rw [Text.takeWhile_ne_append_cons within] at found
      split at found
      · simp at found
      · next h =>
        have ne : target ≠ [] := by
          rintro rfl
          simp at h
        exact ⟨target, rest, rfl, ne, within, by simpa using found.symm⟩
    · rw [Text.takeWhile_ne_eq_self closed] at found
      simp at found
  · rintro ⟨target, rest, rfl, ne, within, rfl⟩
    refine ⟨target ++ ')' :: rest, rfl, ?_⟩
    rw [Text.takeWhile_ne_append_cons within]
    simp [ne]

theorem linked?_eq_some_iff {t words : Text} {n : Nat} :
    linked? t = some (words, n) ↔
      ∃ target rest, t = '[' :: (words ++ ']' :: '(' :: (target ++ ')' :: rest)) ∧ ']' ∉ words ∧ target ≠ [] ∧
        ')' ∉ target ∧ n = words.length + target.length + 4 := by
  simp only [linked?, Option.bind_eq_bind, Option.bind_eq_some_iff, Text.after?_eq_some_iff, Option.pure_def,
    Option.some.injEq, Prod.mk.injEq, targetLength?_eq_some_iff]
  constructor
  · rintro ⟨body, rfl, _, closing, _, ⟨target, rest, rfl, ne, within, rfl⟩, rfl, rfl⟩
    refine ⟨target, rest, ?_, not_mem_takeWhile_ne ']' body, ne, within, by omega⟩
    have split := Text.eq_takeWhile_append_drop (· ≠ ']') body
    rw [closing] at split
    exact congrArg ('[' :: ·) split
  · rintro ⟨target, rest, rfl, closed, ne, within, rfl⟩
    refine ⟨words ++ ']' :: '(' :: (target ++ ')' :: rest), rfl, _, ?_, _, ⟨target, rest, rfl, ne, within, rfl⟩, ?_⟩
    · rw [Text.takeWhile_ne_append_cons closed, List.drop_left]
      rfl
    · rw [Text.takeWhile_ne_append_cons closed]
      exact ⟨rfl, by omega⟩

theorem isMarking_brackets : isMarking '[' = false ∧ isMarking ']' = false ∧ isMarking '(' = true ∧
    isMarking ')' = true ∧ isMarking '!' = true := by decide

/-- An image loses all but its description. -/
theorem takes_describedImage : Takes describedImage := by
  intro previous t hit found
  simp only [describedImage, Option.bind_eq_bind, Option.bind_eq_some_iff, Text.after?_eq_some_iff, Option.pure_def,
    Option.some.injEq] at found
  obtain ⟨body, rfl, ⟨words, n⟩, found, rfl⟩ := found
  obtain ⟨target, rest, rfl, closed, ne, within, rfl⟩ := linked?_eq_some_iff.1 found
  refine ⟨_, rest, by simp, ?_, ?_, _, .image closed ne within, .inl List.infix_rfl⟩
  · simp
    omega
  · have put : "[image: ".toList.countP isMarking = 0 := by decide
    simp only [List.countP_append, List.countP_cons, List.countP_nil, put, isMarking_brackets]
    simp only [Bool.false_eq_true, if_false, if_true]
    omega

theorem takes_linkWords : Takes linkWords := by
  intro previous t hit found
  simp only [linkWords, Option.bind_eq_bind, Option.bind_eq_some_iff] at found
  obtain ⟨⟨words, n⟩, found, kept⟩ := found
  obtain ⟨target, rest, rfl, closed, ne, within, rfl⟩ := linked?_eq_some_iff.1 found
  split at kept
  · simp at kept
  · next full =>
    obtain rfl := Option.some.inj kept
    refine ⟨_, rest, by simp, ?_, ?_, _, .link full closed ne within, .inl List.infix_rfl⟩
    · simp
      omega
    · simp only [List.countP_append, List.countP_cons, List.countP_nil, isMarking_brackets]
      simp only [Bool.false_eq_true, if_false, if_true]
      omega

theorem countP_pos_of_mem {c : Char} {t : Text} (mem : c ∈ t) (marking : isMarking c = true) :
    0 < t.countP isMarking :=
  List.countP_pos_iff.2 ⟨c, mem, marking⟩

/-- A text begins with the characters that are taken while `p` holds, and the rest follows. -/
theorem exists_takeWhile (p : Char → Bool) (t : Text) :
    ∃ w rest, t = w ++ rest ∧ t.takeWhile p = w ∧ t.drop w.length = rest ∧ ∀ c ∈ w, p c = true :=
  ⟨_, _, Text.eq_takeWhile_append_drop p t, rfl, rfl, List.all_eq_true.1 List.all_takeWhile⟩

theorem takes_headingMark : Takes headingMark := by
  intro previous t hit found
  obtain ⟨hashes, body, split, level, dropped, same⟩ := exists_takeWhile (· = '#') t
  obtain ⟨space, rest, split', blanks, _, spaces⟩ := exists_takeWhile isTabOrSpace body
  simp only [headingMark, level, dropped, blanks] at found
  subst split split'
  split at found
  · next h =>
    simp only [Bool.and_eq_true, decide_eq_true_eq] at h
    obtain rfl := Option.some.inj found
    have ne : hashes ≠ [] := List.length_pos_iff.1 h.1.1
    obtain ⟨b, more, rfl⟩ := List.exists_cons_of_length_pos h.2
    have last : hashes.getLast ne = '#' := by simpa using same _ (List.getLast_mem ne)
    have init := List.dropLast_concat_getLast ne
    rw [last] at init
    refine ⟨hashes ++ b :: more, rest, by simp, by simp, ?_, _, .heading (spaces b (by simp)), .inl ?_⟩
    · exact countP_pos_of_mem (List.mem_append_left _ (last ▸ List.getLast_mem ne)) (by decide)
    · exact ⟨hashes.dropLast, more, by rw [← init]; simp⟩
  · simp at found

/-- What begins a line loses its marker. -/
theorem takes_itemMark {markerLength : Text → Nat} {replacement : Text}
    (marks : ∀ t, 1 ≤ markerLength t → ∃ marker rest, t = marker ++ rest ∧ markerLength t = marker.length ∧
      (∃ c ∈ marker, isMarking c = true) ∧ ∀ indent blank, (∀ c ∈ indent, isTabOrSpace c = true) →
        isBlank blank = true → FormatMark ('\n' :: indent ++ marker ++ [blank]))
    (put : replacement.countP isMarking = 0) : Takes (itemMark markerLength replacement) := by
  intro previous t hit found
  obtain ⟨indent, body, split, taken, dropped, spaces⟩ := exists_takeWhile isTabOrSpace t
  simp only [itemMark, taken, ← List.drop_drop, dropped] at found
  subst split
  split at found
  · next start =>
    split at found
    · next h =>
      simp only [Bool.and_eq_true, decide_eq_true_eq] at h
      obtain rfl := Option.some.inj found
      obtain ⟨marker, rest, rfl, length, ⟨c, mem, marking⟩, isMark⟩ := marks body h.1
      obtain ⟨space, after, split, blanks, _, blank⟩ := exists_takeWhile isBlank rest
      rw [length, List.drop_left, blanks] at h ⊢
      obtain ⟨b, more, rfl⟩ := List.exists_cons_of_length_pos h.2
      refine ⟨indent ++ marker ++ b :: more, after, by simp [split], by simp [Nat.add_assoc], ?_, _,
        isMark indent b spaces (blank b (by simp)), .inr ⟨start, more, by simp⟩⟩
      rw [put]
      exact countP_pos_of_mem (by simp [mem]) marking
    · simp at found
  · simp at found

theorem exists_bullet {t : Text} (h : 1 ≤ bulletLength t) :
    ∃ c rest, t = c :: rest ∧ c ∈ ['-', '*', '+'] ∧ bulletLength t = 1 := by
  unfold bulletLength at h ⊢
  split at h
  · exact ⟨_, _, rfl, by decide, rfl⟩
  · exact ⟨_, _, rfl, by decide, rfl⟩
  · exact ⟨_, _, rfl, by decide, rfl⟩
  · simp at h

theorem takes_bullet : Takes (itemMark bulletLength "• ".toList) := by
  refine takes_itemMark (fun t h => ?_) (by decide)
  obtain ⟨c, rest, rfl, mark, length⟩ := exists_bullet h
  refine ⟨[c], rest, rfl, length, ⟨c, by simp, ?_⟩, fun indent blank spaces space => ?_⟩
  · exact List.all_eq_true.1 (by decide : ['-', '*', '+'].all isMarking = true) c mark
  · simpa using FormatMark.bullet spaces mark space

theorem exists_number {t : Text} (h : 1 ≤ numberLength t) :
    ∃ digits rest, t = digits ++ '.' :: rest ∧ digits ≠ [] ∧ (∀ c ∈ digits, isDecimalDigit c = true) ∧
      numberLength t = digits.length + 1 := by
  obtain ⟨digits, body, split, taken, dropped, decimal⟩ := exists_takeWhile isDecimalDigit t
  simp only [numberLength, taken, dropped] at h ⊢
  split at h
  · next found =>
    simp only [Bool.and_eq_true, decide_eq_true_eq] at found
    obtain ⟨rest, rfl⟩ := List.head?_eq_some_iff.1 found.2
    exact ⟨digits, rest, split, List.length_pos_iff.1 found.1, decimal, if_pos (by simpa using found.1)⟩
  · simp at h

theorem takes_number : Takes (itemMark numberLength []) := by
  refine takes_itemMark (fun t h => ?_) rfl
  obtain ⟨digits, rest, rfl, ne, decimal, length⟩ := exists_number h
  obtain ⟨c, more, rfl⟩ := List.exists_cons_of_ne_nil ne
  refine ⟨c :: more ++ ['.'], rest, by simp, by simpa using length, ⟨c, by simp, ?_⟩,
    fun indent blank spaces space => ?_⟩
  · simp [isMarking, decimal c (by simp)]
  · simpa using FormatMark.number spaces ne decimal space

theorem takes_emptyLines : Takes emptyLines := by
  intro previous t hit found
  obtain ⟨lines, rest, split, taken, _, same⟩ := exists_takeWhile (· = '\n') t
  simp only [emptyLines, taken] at found
  subst split
  split at found
  · next many =>
    obtain rfl := Option.some.inj found
    have all : lines = List.replicate lines.length '\n' :=
      List.eq_replicate_of_mem fun c hc => by simpa using same c hc
    have put : "\n\n".toList.countP isMarking = 2 := by decide
    refine ⟨lines, rest, rfl, rfl, ?_, _, .emptyLines, .inl ?_⟩
    · rw [put, List.countP_eq_length.2 fun c hc => ?_]
      · exact many
      · rw [all] at hc
        rw [List.eq_of_mem_replicate hc]
        decide
    · have first : lines.take 3 = ['\n', '\n', '\n'] := by
        rw [all, List.take_replicate, Nat.min_eq_left many]
        rfl
      exact ⟨[], lines.drop 3, by rw [← first, List.nil_append, List.take_append_drop]⟩
  · simp at found

/-- Every rule of the plain text takes marks away. -/
theorem forall_takes : ∀ rule ∈ plainTextRules, Takes rule := by
  have line {c : Char} (mark : c ∈ ['`', '*', '_']) {words : Text} (ne : words ≠ []) (within : c ∉ words) :
      FormatMark (c :: words ++ [c]) := .marked mark ne within
  simp only [plainTextRules, List.forall_mem_cons, List.not_mem_nil, false_imp_iff, implies_true, and_true]
  refine ⟨takes_codeBlock, takes_between rfl (by decide) fun ne within => ⟨_, line (by decide) ne within, ?_⟩,
    takes_describedImage, takes_linkWords, takes_headingMark,
    takes_between rfl (by decide) fun ne within => ⟨_, line (by decide) ne within, ?_⟩,
    takes_between rfl (by decide) fun ne within => ⟨_, line (by decide) ne within, ?_⟩,
    takes_between rfl (by decide) fun ne within => ⟨_, line (by decide) ne within, ?_⟩,
    takes_between rfl (by decide) fun ne within => ⟨_, line (by decide) ne within, ?_⟩,
    takes_between rfl (by decide) fun ne within => ⟨_, .struck ne within, List.infix_rfl⟩,
    takes_bullet, takes_number, takes_emptyLines⟩
  · exact List.infix_rfl
  · exact ⟨['*'], ['*'], by simp⟩
  · exact List.infix_rfl
  · exact ⟨['_'], ['_'], by simp⟩
  · exact List.infix_rfl

/-! ## Marks are found -/

/-- The rule finds something in the text that `previous` stands before. -/
def Finds (rule : Recogniser) (previous : Option Char) (t : Text) : Prop :=
  ∃ before after, t = before ++ after ∧ after ≠ [] ∧ rule (lastChar previous before) after ≠ none

theorem codeBlock_ne_none (previous : Option Char) (code rest : Text) :
    codeBlock previous ("```".toList ++ code ++ "```".toList ++ rest) ≠ none := by
  have stops : Text.startsWith "```".toList ("```".toList ++ rest) = true := Text.startsWith_iff.2 ⟨rest, rfl⟩
  have anywhere : ∀ c ∈ code, Text.anyChar c = true := fun _ _ => rfl
  obtain ⟨content, found⟩ := Option.isSome_iff_exists.1 (Text.before?_isSome_of_stop anywhere stops)
  have opening : Text.after? "```".toList ("```".toList ++ code ++ "```".toList ++ rest) =
      some (code ++ ("```".toList ++ rest)) := Text.after?_eq_some_iff.2 (by simp)
  simp only [codeBlock, opening, found, Option.bind_eq_bind, Option.bind_some]
  simp

theorem headingMark_ne_none (previous : Option Char) {blank : Char} (space : isTabOrSpace blank = true) (rest : Text) :
    headingMark previous ('#' :: blank :: rest) ≠ none := by
  have other : blank ≠ '#' := by
    rintro rfl
    exact absurd space (by decide)
  simp [headingMark, other, space]

theorem itemMark_ne_none {markerLength : Text → Nat} {replacement indent marker rest : Text} {blank : Char}
    (spaces : ∀ c ∈ indent, isTabOrSpace c = true) (ne : marker ≠ [])
    (solid : ∀ c ∈ marker.head?, isTabOrSpace c = false)
    (length : markerLength (marker ++ blank :: rest) = marker.length) (space : isBlank blank = true) :
    itemMark markerLength replacement (some '\n') (indent ++ marker ++ blank :: rest) ≠ none := by
  obtain ⟨c, more, rfl⟩ := List.exists_cons_of_ne_nil ne
  have taken : (indent ++ (c :: more ++ blank :: rest)).takeWhile isTabOrSpace = indent := by
    rw [List.takeWhile_append_of_pos spaces, List.cons_append, List.takeWhile_cons_of_neg (by simp [solid c rfl]),
      List.append_nil]
  rw [List.append_assoc]
  simp only [itemMark, taken, ← List.drop_drop, List.drop_left, length]
  simp [atLineStart, space]

theorem numberLength_append {digits rest : Text} (ne : digits ≠ []) (decimal : ∀ c ∈ digits, isDecimalDigit c = true) :
    numberLength (digits ++ '.' :: rest) = digits.length + 1 := by
  have other : isDecimalDigit '.' = false := by decide
  have taken : (digits ++ '.' :: rest).takeWhile isDecimalDigit = digits := by
    rw [List.takeWhile_append_of_pos decimal, List.takeWhile_cons_of_neg (by simp [other]), List.append_nil]
  have some : 1 ≤ digits.length := List.length_pos_iff.2 ne
  simp [numberLength, taken, some]

section Found

variable {rule : Recogniser} {m : Text} (before after : Text)

theorem finds_of_ne_none (ne : m ≠ []) (found : ∀ previous, rule previous (m ++ after) ≠ none) :
    Finds rule none (before ++ m ++ after) :=
  ⟨before, m ++ after, by simp, by simp [ne], found _⟩

/-- A mark at the beginning of a line is found behind the newline. -/
theorem finds_behind_newline (ne : m ≠ []) (found : rule (some '\n') (m ++ after) ≠ none) :
    Finds rule none (before ++ ('\n' :: m) ++ after) := by
  refine ⟨before ++ ['\n'], m ++ after, by simp, by simp [ne], ?_⟩
  rw [lastChar_append]
  exact found

theorem finds_between {mark : String} {c : Char} {more words : Text} (begins : mark.toList = c :: more)
    (ne : words ≠ []) (within : c ∉ words) :
    Finds (between mark c) none (before ++ (mark.toList ++ words ++ mark.toList) ++ after) := by
  refine finds_of_ne_none before after (by simp [begins]) fun previous => ?_
  rw [(between_eq_some_iff begins).2 ⟨words, after, rfl, ne, within, rfl⟩]
  simp

end Found

/-- Wherever a mark stands, some rule finds something. -/
theorem FormatMark.finds {m : Text} (h : FormatMark m) (before after : Text) :
    ∃ rule ∈ plainTextRules, Finds rule none (before ++ m ++ after) := by
  cases h with
  | marked mark ne within =>
    simp only [List.mem_cons, List.not_mem_nil, or_false] at mark
    rcases mark with rfl | rfl | rfl
    · exact ⟨between "`" '`', by simp [plainTextRules], finds_between before after rfl ne within⟩
    · exact ⟨between "*" '*', by simp [plainTextRules], finds_between before after rfl ne within⟩
    · exact ⟨between "_" '_', by simp [plainTextRules], finds_between before after rfl ne within⟩
  | codeBlock code =>
    refine ⟨Markdown.codeBlock, by simp [plainTextRules], ?_⟩
    exact finds_of_ne_none before after (by simp) fun previous => codeBlock_ne_none previous code after
  | struck ne within => exact ⟨between "~~" '~', by simp [plainTextRules], finds_between before after rfl ne within⟩
  | @link words target ne closed ne' closed' =>
    refine ⟨linkWords, by simp [plainTextRules], finds_of_ne_none before after (by simp) fun previous => ?_⟩
    have found := linked?_eq_some_iff.2 ⟨target, after, rfl, closed, ne', closed', rfl⟩
    simp [linkWords, found, ne]
  | @image words target closed ne closed' =>
    refine ⟨describedImage, by simp [plainTextRules], finds_of_ne_none before after (by simp) fun previous => ?_⟩
    have found := linked?_eq_some_iff.2 ⟨target, after, rfl, closed, ne, closed', rfl⟩
    simp [describedImage, Text.after?, found]
  | heading space =>
    refine ⟨headingMark, by simp [plainTextRules], ?_⟩
    exact finds_of_ne_none before after (by simp) fun previous => headingMark_ne_none previous space after
  | @bullet indent c blank spaces mark space =>
    refine ⟨itemMark bulletLength "• ".toList, by simp [plainTextRules],
      finds_behind_newline before after (by simp) ?_⟩
    have length : bulletLength ([c] ++ blank :: after) = 1 := by
      simp only [List.mem_cons, List.not_mem_nil, or_false] at mark
      rcases mark with rfl | rfl | rfl <;> rfl
    have solid := List.all_eq_true.1 (by decide : ['-', '*', '+'].all (!isTabOrSpace ·) = true) c mark
    simpa using itemMark_ne_none spaces (by simp) (by simpa using solid) length space
  | @number indent digits blank spaces ne decimal space =>
    refine ⟨itemMark numberLength [], by simp [plainTextRules], finds_behind_newline before after (by simp) ?_⟩
    have length : numberLength ((digits ++ ['.']) ++ blank :: after) = (digits ++ ['.']).length := by
      rw [List.append_assoc, List.singleton_append, numberLength_append ne decimal]
      simp
    have solid : ∀ c ∈ (digits ++ ['.']).head?, isTabOrSpace c = false := by
      obtain ⟨d, more, rfl⟩ := List.exists_cons_of_ne_nil ne
      have digit := decimal d (by simp)
      simp only [List.cons_append, List.head?_cons, Option.mem_some_iff, forall_eq']
      cases space : isTabOrSpace d with
      | false => rfl
      | true =>
        simp only [isTabOrSpace, Bool.or_eq_true, beq_iff_eq] at space
        rcases space with rfl | rfl <;> exact absurd digit (by decide)
    simpa using itemMark_ne_none spaces (by simp) solid length space
  | emptyLines =>
    refine ⟨Markdown.emptyLines, by simp [plainTextRules], finds_of_ne_none before after (by simp) fun previous => ?_⟩
    simp [Markdown.emptyLines]

/-! ## Applying the rules -/

theorem not_finds_cons {rule : Recogniser} {previous : Option Char} {c : Char} {cs : Text}
    (none : rule previous (c :: cs) = none) (nothing : ¬Finds rule (some c) cs) : ¬Finds rule previous (c :: cs) := by
  rintro ⟨before, after, split, ne, found⟩
  cases before with
  | nil =>
    obtain rfl : c :: cs = after := split
    exact found none
  | cons d ds =>
    obtain ⟨rfl, rest⟩ := List.cons.inj split
    exact nothing ⟨ds, after, rest, ne, found⟩

/-- A rule finds nothing and leaves the text as it is, or finds something and takes marking characters away. -/
theorem replaceAfter_cases {rule : Recogniser} (takes : Takes rule) (previous : Option Char) (t : Text) :
    ¬Finds rule previous t ∧ replaceAfter rule previous t = t ∨
      Finds rule previous t ∧ (replaceAfter rule previous t).countP isMarking < t.countP isMarking := by
  induction size : t.length using Nat.strongRecOn generalizing previous t with
  | ind n ih =>
    cases t with
    | nil =>
      refine .inl ⟨?_, replaceAfter_nil rule previous⟩
      rintro ⟨before, after, split, ne, -⟩
      exact ne (List.append_eq_nil_iff.1 split.symm).2
    | cons c cs =>
      cases found : rule previous (c :: cs) with
      | none =>
        rw [replaceAfter_of_none found]
        rcases ih cs.length (by simp [← size]) (some c) cs rfl with ⟨nothing, same⟩ | ⟨finds, fewer⟩
        · exact .inl ⟨not_finds_cons found nothing, by rw [same]⟩
        · obtain ⟨before, after, rfl, there⟩ := finds
          exact .inr ⟨⟨c :: before, after, rfl, there⟩, by simpa [List.countP_cons] using fewer⟩
      | some hit =>
        obtain ⟨source, rest, split, length, fewer, -⟩ := takes found
        have ne : source ≠ [] := by
          rintro rfl
          simp at fewer
        have shorter : rest.length < n := by
          have pos := List.length_pos_iff.2 ne
          rw [← size, split, List.length_append]
          omega
        refine .inr ⟨⟨[], c :: cs, rfl, List.cons_ne_nil c cs, by simp [lastChar, found]⟩, ?_⟩
        rw [split, replaceAfter_of_some ne (split ▸ found) length, List.countP_append, List.countP_append]
        rcases ih rest.length shorter (lastChar previous source) rest rfl with ⟨-, same⟩ | ⟨-, more⟩
        · rw [same]
          omega
        · omega

/-- No rule finds anything and the text stays as it is, or there are fewer marking characters in the end. -/
theorem foldl_replaceFound_cases {rules : List Recogniser} (takes : ∀ rule ∈ rules, Takes rule) (t : Text) :
    (∀ rule ∈ rules, ¬Finds rule none t) ∧ rules.foldl (fun t rule => replaceFound rule t) t = t ∨
      (∃ rule ∈ rules, Finds rule none t) ∧
        (rules.foldl (fun t rule => replaceFound rule t) t).countP isMarking < t.countP isMarking := by
  induction rules generalizing t with
  | nil => exact .inl ⟨by simp, rfl⟩
  | cons rule rules ih =>
    rw [List.forall_mem_cons] at takes
    rw [List.foldl_cons, List.forall_mem_cons]
    rcases replaceAfter_cases takes.1 none t with ⟨nothing, same⟩ | ⟨finds, fewer⟩
    · have same : replaceFound rule t = t := same
      rw [same]
      rcases ih takes.2 t with ⟨none, same⟩ | ⟨⟨later, mem, finds⟩, fewer⟩
      · exact .inl ⟨⟨nothing, none⟩, same⟩
      · exact .inr ⟨⟨later, List.mem_cons_of_mem rule mem, finds⟩, fewer⟩
    · have fewer : (replaceFound rule t).countP isMarking < t.countP isMarking := fewer
      refine .inr ⟨⟨rule, List.mem_cons_self, finds⟩, ?_⟩
      rcases ih takes.2 (replaceFound rule t) with ⟨-, same⟩ | ⟨-, more⟩
      · rwa [same]
      · omega

/-! ## Marks in a formula -/

/-- A formula between dollar signs. -/
def inDollars (f : Text) : Text := '$' :: f ++ ['$']

/-- A character that may stand around a formula. -/
def isOuter (c : Char) : Bool := isProse c || c == '$'

theorem isOuter_of_isDecimalDigit {c : Char} (digit : isDecimalDigit c = true) : isOuter c = false := by
  have ne (d : Char) (other : isDecimalDigit d = false) : (c == d) = false := by
    simp only [beq_eq_false_iff_ne]
    rintro rfl
    simp [other] at digit
  simp [isOuter, isProse, digit, ne ' ' (by decide), ne '.' (by decide), ne '$' (by decide)]

theorem isOuter_of_mem {c : Char} (h : c ∈ ['[', '`', '!', '(', ')', '#', '*', '_', '~', '-', '+', '\n']) :
    isOuter c = false := by
  have all : ['[', '`', '!', '(', ')', '#', '*', '_', '~', '-', '+', '\n'].all (!isOuter ·) = true := by decide +kernel
  simpa using List.all_eq_true.1 all c h

theorem isOuter_of_isMarking {c : Char} (marking : isMarking c = true) : isOuter c = false := by
  simp only [isMarking, Bool.or_eq_true, List.contains_iff_mem] at marking
  rcases marking with mem | digit
  · exact isOuter_of_mem (List.mem_cons_of_mem _ mem)
  · exact isOuter_of_isDecimalDigit digit

theorem countP_isMarking_of_isOuter {t : Text} (outer : ∀ c ∈ t, isOuter c = true) : t.countP isMarking = 0 := by
  rw [List.countP_eq_zero]
  intro c mem marking
  simpa [isOuter_of_isMarking marking] using outer c mem

/-- A stretch that begins inside the formula, and ends there or has no dollar sign in it, is a part of it. -/
theorem infix_of_infix_around {u v f m : Text} (outer : ∀ c ∈ u ++ v, isOuter c = true)
    (first : ∃ c r, m = c :: r ∧ isOuter c = false)
    (last : '$' ∉ m ∨ ∃ r c, m = r ++ [c] ∧ isOuter c = false)
    (h : m <:+: u ++ inDollars f ++ v) : m <:+: f := by
  have notBefore {c : Char} (inner : isOuter c = false) : c ∉ u ++ ['$'] := fun mem => by
    rcases List.mem_append.1 mem with mem | mem
    · simpa [inner] using outer c (List.mem_append_left _ mem)
    · simp_all [isOuter]
  have notBehind {c : Char} (inner : isOuter c = false) : c ∉ '$' :: v := fun mem => by
    rcases List.mem_cons.1 mem with mem | mem
    · simp_all [isOuter]
    · simpa [inner] using outer c (List.mem_append_right _ mem)
  obtain ⟨before, after, eq⟩ := h
  obtain ⟨c, r, rfl, inner⟩ := first
  have begins : (u ++ ['$']) ++ (f ++ '$' :: v) = before ++ c :: (r ++ after) := by simpa [inDollars] using eq.symm
  obtain ⟨front, -, split⟩ := exists_of_append_eq_append_cons (notBefore inner) begins
  rcases last with without | ⟨r', d, ends, inner'⟩
  · obtain ⟨back, behind, rfl⟩ := Text.exists_of_append_cons_eq_append (notBehind inner) split.symm
    obtain ⟨more, rfl, -⟩ := exists_of_append_eq_append_cons (fun h => without (List.mem_cons_of_mem c h)) behind
    exact ⟨front, more, by simp⟩
  · have closes : (front ++ r') ++ d :: after = f ++ '$' :: v := by
      rw [split, ← List.cons_append, ends]
      simp
    obtain ⟨back, -, rfl⟩ := Text.exists_of_append_cons_eq_append (notBehind inner') closes
    exact ⟨front, back, by simp [ends]⟩

/-- What a mark begins with. -/
theorem FormatMark.first {m : Text} (h : FormatMark m) :
    ∃ c r, m = c :: r ∧ c ∈ ['`', '*', '_', '~', '[', '!', '#', '\n'] := by
  cases h with
  | marked mark ne within => exact ⟨_, _, rfl, by grind⟩
  | codeBlock code => exact ⟨'`', _, rfl, by simp⟩
  | struck ne within => exact ⟨'~', _, rfl, by simp⟩
  | link ne closed ne' closed' => exact ⟨'[', _, rfl, by simp⟩
  | image closed ne closed' => exact ⟨'!', _, rfl, by simp⟩
  | heading space => exact ⟨'#', _, rfl, by simp⟩
  | bullet spaces mark space => exact ⟨'\n', _, rfl, by simp⟩
  | number spaces ne decimal space => exact ⟨'\n', _, rfl, by simp⟩
  | emptyLines => exact ⟨'\n', _, rfl, by simp⟩

theorem FormatMark.first_isOuter {m : Text} (h : FormatMark m) : ∃ c r, m = c :: r ∧ isOuter c = false := by
  obtain ⟨c, r, rfl, mem⟩ := h.first
  have special : ['`', '*', '_', '~', '[', '!', '#', '\n'] ⊆
      ['[', '`', '!', '(', ')', '#', '*', '_', '~', '-', '+', '\n'] := by decide
  exact ⟨c, r, rfl, isOuter_of_mem (special mem)⟩

theorem dollar_not_mem {p : Char → Bool} {t : Text} (all : ∀ c ∈ t, p c = true) (other : p '$' = false) : '$' ∉ t :=
  fun mem => by simpa [other] using all '$' mem

theorem dollar_ne {p : Char → Bool} {c : Char} (h : p c = true) (other : p '$' = false) : '$' ≠ c := by
  rintro rfl
  simp [other] at h

/-- A mark with other text in it ends with a character that does not stand in prose. -/
theorem FormatMark.last {m : Text} (h : FormatMark m) : '$' ∉ m ∨ ∃ r c, m = r ++ [c] ∧ isOuter c = false := by
  cases h with
  | marked mark ne within => exact .inr ⟨_, _, rfl, isOuter_of_mem (by grind)⟩
  | codeBlock code => exact .inr ⟨"```".toList ++ code ++ "``".toList, '`', by simp, isOuter_of_mem (by simp)⟩
  | @struck words ne within =>
    exact .inr ⟨"~~".toList ++ words ++ "~".toList, '~', by simp, isOuter_of_mem (by simp)⟩
  | link ne closed ne' closed' => exact .inr ⟨_, ')', rfl, isOuter_of_mem (by simp)⟩
  | image closed ne closed' => exact .inr ⟨_, ')', rfl, isOuter_of_mem (by simp)⟩
  | heading space => exact .inl (by simp [dollar_ne space (by decide)])
  | bullet spaces mark space =>
    have other := dollar_ne space (by decide)
    have notIndent := dollar_not_mem spaces (by decide)
    exact .inl (by grind)
  | number spaces ne decimal space =>
    have other := dollar_ne space (by decide)
    have notIndent := dollar_not_mem spaces (by decide)
    have notDigits := dollar_not_mem decimal (by decide)
    exact .inl (by grind)
  | emptyLines => exact .inl (by decide)

/-- Where a mark begins with a newline, what makes it a mark comes before any dollar sign. -/
theorem FormatMark.behind_newline {t : Text} (h : FormatMark ('\n' :: t)) :
    ∃ p c r, t = p ++ c :: r ∧ '$' ∉ p ∧ isOuter c = false := by
  generalize eq : '\n' :: t = m at h
  cases h with
  | marked mark ne within =>
    obtain ⟨rfl, -⟩ := List.cons.inj eq
    simp at mark
  | codeBlock code => simp at eq
  | struck ne within => simp at eq
  | link ne closed ne' closed' => simp at eq
  | image closed ne closed' => simp at eq
  | heading space => simp at eq
  | @bullet indent c blank spaces mark space =>
    obtain ⟨-, rfl⟩ := List.cons.inj eq
    exact ⟨indent, c, [blank], rfl, dollar_not_mem spaces (by decide), isOuter_of_mem (by grind)⟩
  | @number indent digits blank spaces ne decimal space =>
    obtain ⟨-, rfl⟩ := List.cons.inj eq
    obtain ⟨d, more, rfl⟩ := List.exists_cons_of_ne_nil ne
    exact ⟨indent, d, more ++ ['.', blank], by simp, dollar_not_mem spaces (by decide),
      isOuter_of_isDecimalDigit (decimal d (by simp))⟩
  | emptyLines =>
    obtain ⟨-, rfl⟩ := List.cons.inj eq
    exact ⟨[], '\n', ['\n'], rfl, by simp, isOuter_of_mem (by simp)⟩

/-- A mark in a text with one formula between prose is in the formula. -/
theorem FormatMark.infix_of_infix {u v f m : Text} (h : FormatMark m) (outer : ∀ c ∈ u ++ v, isOuter c = true)
    (inside : m <:+: '\n' :: (u ++ inDollars f ++ v)) : m <:+: f := by
  rcases List.infix_cons_iff.1 inside with ⟨after, eq⟩ | inside
  · exfalso
    obtain ⟨c, t, rfl, -⟩ := h.first
    obtain ⟨rfl, rest⟩ := List.cons.inj eq
    obtain ⟨p, c, r, rfl, without, inner⟩ := h.behind_newline
    have split : p ++ (c :: r ++ after) = u ++ '$' :: (f ++ '$' :: v) := by simpa [inDollars] using rest
    obtain ⟨more, rfl, next⟩ := exists_of_append_eq_append_cons without split
    cases more with
    | nil =>
      obtain ⟨rfl, -⟩ := List.cons.inj next
      simp [isOuter] at inner
    | cons d ds =>
      obtain ⟨rfl, -⟩ := List.cons.inj next
      simpa [inner] using outer c (by simp)
  · exact infix_of_infix_around outer h.first_isOuter h.last inside

theorem eq_nil_of_lastChar {before : Text} (h : lastChar none before = none) : before = [] := by
  cases before with
  | nil => rfl
  | cons c cs => simp [← getLast?_cons_eq_lastChar] at h

theorem exists_of_lastChar {before : Text} {c : Char} (h : lastChar none before = some c) :
    ∃ front, before = front ++ [c] := by
  cases before with
  | nil => cases h
  | cons d ds =>
    rw [← getLast?_cons_eq_lastChar, List.getLast?_eq_some_iff] at h
    exact h

/-- What a rule finds is a mark, where the text counts as standing behind a newline. -/
theorem Takes.exists_mark {rule : Recogniser} (takes : Takes rule) {t : Text} (finds : Finds rule none t) :
    ∃ m, FormatMark m ∧ m <:+: '\n' :: t := by
  obtain ⟨before, after, rfl, -, found⟩ := finds
  obtain ⟨hit, found⟩ := Option.ne_none_iff_exists'.1 found
  obtain ⟨source, rest, rfl, -, -, m, mark, inside | ⟨line, begins⟩⟩ := takes found
  · refine ⟨m, mark, inside.trans ⟨'\n' :: before, rest, by simp⟩⟩
  · have further : m <+: '\n' :: (source ++ rest) := begins.trans ⟨rest, by simp⟩
    simp only [atLineStart, Bool.or_eq_true, decide_eq_true_eq] at line
    rcases line with start | newline
    · rw [eq_nil_of_lastChar start]
      exact ⟨m, mark, further.isInfix⟩
    · obtain ⟨front, rfl⟩ := exists_of_lastChar newline
      exact ⟨m, mark, further.isInfix.trans ⟨'\n' :: front, [], by simp⟩⟩

theorem countP_trim_le (t : Text) : t.trim.countP isMarking ≤ t.countP isMarking := by
  obtain ⟨before, after, text, -, -⟩ := Text.exists_trim_eq t
  have inside : t.trim <:+: t := ⟨before, after, text.symm⟩
  exact inside.sublist.countP_le

/-- A formula between prose is in the plain text as it was written exactly if nothing in it looks like a mark of
Markdown. -/
theorem infix_plainText_iff {u v : Text} (prose : ∀ c ∈ u ++ v, isProse c = true) (f : Text) :
    inDollars f <:+: plainText (u ++ inDollars f ++ v) ↔ ∀ m, FormatMark m → ¬m <:+: f := by
  have outer : ∀ c ∈ u ++ v, isOuter c = true := fun c mem => by rw [isOuter, prose c mem, Bool.true_or]
  constructor
  · -- A mark is found by some rule. What is left then has too few marking characters for the formula.
    intro kept m mark inside
    obtain ⟨front, back, within⟩ := inside
    have around : u ++ inDollars f ++ v = (u ++ '$' :: front) ++ m ++ (back ++ '$' :: v) := by
      simp [← within, inDollars]
    obtain ⟨rule, mem, finds⟩ := mark.finds (u ++ '$' :: front) (back ++ '$' :: v)
    rw [← around] at finds
    rcases foldl_replaceFound_cases forall_takes (u ++ inDollars f ++ v) with ⟨nothing, -⟩ | ⟨-, fewer⟩
    · exact nothing rule mem finds
    · have all : (u ++ inDollars f ++ v).countP isMarking = (inDollars f).countP isMarking := by
        have zero := countP_isMarking_of_isOuter outer
        simp only [List.countP_append] at zero ⊢
        omega
      have kept : (inDollars f).countP isMarking ≤ (plainText (u ++ inDollars f ++ v)).countP isMarking :=
        kept.sublist.countP_le
      have trimmed := countP_trim_le (plainTextRules.foldl (fun t rule => replaceFound rule t) (u ++ inDollars f ++ v))
      rw [plainText] at kept
      omega
  · -- Without a mark in the formula there is none in the text, so no rule finds anything.
    intro clean
    rcases foldl_replaceFound_cases forall_takes (u ++ inDollars f ++ v) with ⟨-, same⟩ | ⟨⟨rule, mem, finds⟩, -⟩
    · rw [plainText, same, inDollars, List.cons_append, Text.trim_around (by decide) (by decide)]
      exact List.infix_append ..
    · obtain ⟨m, mark, inside⟩ := (forall_takes rule mem).exists_mark finds
      exact absurd (mark.infix_of_infix outer inside) (clean m mark)

/-- The area of a circle is kept. -/
theorem infix_plainText_iff_circle :
    (∀ c ∈ "The area is ".toList ++ ".".toList, isProse c = true) ∧
      inDollars "\\pi r^2".toList <:+:
        plainText ("The area is ".toList ++ inDollars "\\pi r^2".toList ++ ".".toList) := by
  have prose : ("The area is ".toList ++ ".".toList).all isProse = true := by decide +kernel
  have apart : "\\pi r^2".toList.all (['`', '*', '_', '~', '[', '!', '#', '\n'].contains · = false) = true := by decide
  refine ⟨List.all_eq_true.1 prose, (infix_plainText_iff (List.all_eq_true.1 prose) _).2 fun m mark inside => ?_⟩
  obtain ⟨c, r, rfl, mem⟩ := mark.first
  have other := List.all_eq_true.1 apart c (inside.subset List.mem_cons_self)
  simp [mem] at other

/-- A formula that is set aside as one elsewhere loses its subscripts here. -/
theorem not_infix_plainText_subscripts :
    (protect true ("Let ".toList ++ inDollars "a_1+b_2".toList ++ " be.".toList)).2.map (fun e => (e.kind, e.content)) =
        [(.inline, "a_1+b_2".toList)] ∧
      plainText ("Let ".toList ++ inDollars "a_1+b_2".toList ++ " be.".toList) = "Let $a1+b2$ be.".toList ∧
      ¬inDollars "a_1+b_2".toList <:+: "Let $a1+b2$ be.".toList := by
  decide +kernel

end OfficeFormula.Markdown
