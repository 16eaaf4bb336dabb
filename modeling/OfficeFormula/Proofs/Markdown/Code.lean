import OfficeFormula.Markdown.Formula
import OfficeFormula.Proofs.Span.Verbatim

/-!
# Code in a document

Before the formulas of a document are set aside, line breaks come in for its break tags. They come in
everywhere, code included, so that code with a break tag in it does not reach Markdown as it was
written (`protectLines_breakTag_in_code`). Code that is still code after that, and that no formula
takes in, does reach it, and in its order (`protectLines_code_verbatim`).
-/

namespace OfficeFormula.Markdown

open OfficeFormula.Span

/-! ## Break tags -/

/-- How a break tag is written. -/
inductive IsBreakTag : Text → Prop where
  | mk {word blanks slash : Text} (folded : word.map foldCase = "<br".toList)
      (blank : ∀ c ∈ blanks, isBlank c = true) (optional : slash = [] ∨ slash = ['/']) :
      IsBreakTag (word ++ (blanks ++ (slash ++ ['>'])))

theorem breakTag_eq_some_iff {previous : Option Char} {t : Text} {hit : Hit} :
    breakTag previous t = some hit ↔
      ∃ tag rest, IsBreakTag tag ∧ t = tag ++ rest ∧ hit = ⟨tag.length, ['\n']⟩ := by
  simp only [breakTag, Option.bind_eq_bind, Option.bind_eq_some_iff, Option.pure_def,
    Option.some.injEq]
  constructor
  · rintro ⟨named, begins, rest, closes, rfl⟩
    obtain ⟨word, rfl, folded⟩ := Text.exists_append_of_afterWord? begins
    have blank : ∀ c ∈ named.takeWhile isBlank, isBlank c = true :=
      List.all_eq_true.1 List.all_takeWhile
    have split := List.takeWhile_append_dropWhile (p := isBlank) (l := named)
    generalize named.takeWhile isBlank = blanks at blank split
    generalize named.dropWhile isBlank = inner at closes split
    subst split
    obtain ⟨slash, optional, rfl⟩ :
        ∃ slash, (slash = [] ∨ slash = ['/']) ∧ inner = slash ++ '>' :: rest := by
      split at closes
      · next head =>
        obtain ⟨inner, rfl⟩ := List.head?_eq_some_iff.1 head
        have closed : inner = ['>'] ++ rest := Text.after?_eq_some_iff.1 closes
        exact ⟨['/'], .inr rfl, by rw [closed]; rfl⟩
      · have closed : inner = ['>'] ++ rest := Text.after?_eq_some_iff.1 closes
        exact ⟨[], .inl rfl, by rw [closed]; rfl⟩
    refine ⟨word ++ (blanks ++ (slash ++ ['>'])), rest, .mk folded blank optional, by simp, ?_⟩
    simp only [Hit.mk.injEq, List.length_append, List.length_cons, List.length_nil, and_true]
    omega
  · rintro ⟨_, rest, @⟨word, blanks, slash, folded, blank, optional⟩, rfl, rfl⟩
    refine ⟨blanks ++ (slash ++ '>' :: rest), ?_, rest, ?_, ?_⟩
    · rw [List.append_assoc, Text.afterWord?_append folded]
      simp
    · have solid : isBlank '>' = false := by decide
      have solid' : isBlank '/' = false := by decide
      rw [List.dropWhile_append_of_pos blank]
      rcases optional with rfl | rfl
      · simp [solid, Text.after?_eq_some_iff]
      · simp [solid', Text.after?_eq_some_iff]
    · simp only [Hit.mk.injEq, List.length_append, List.length_cons, List.length_nil, and_true]
      omega

theorem IsBreakTag.exists_cons {tag : Text} (isTag : IsBreakTag tag) :
    ∃ c cs, tag = c :: cs ∧ c ≠ '\n' := by
  obtain @⟨word, blanks, slash, folded, _, _⟩ := isTag
  cases word with
  | nil => simp at folded
  | cons c word =>
    refine ⟨c, word ++ (blanks ++ (slash ++ ['>'])), rfl, ?_⟩
    rintro rfl
    simp [foldCase] at folded

/-! ## Line breaks in place of break tags -/

/-- The text with line breaks in place of its break tags. -/
def withLineBreaks (t : Text) : Text := replaceFound breakTag t

/-- A break tag gives way to a line break. -/
theorem replaceAfter_breakTag_append {previous : Option Char} {tag : Text} (isTag : IsBreakTag tag)
    (rest : Text) :
    replaceAfter breakTag previous (tag ++ rest) =
      '\n' :: replaceAfter breakTag (lastChar previous tag) rest := by
  have hit : breakTag previous (tag ++ rest) = some ⟨tag.length, ['\n']⟩ :=
    breakTag_eq_some_iff.2 ⟨tag, rest, isTag, rfl, rfl⟩
  obtain ⟨c, cs, cons, _⟩ := isTag.exists_cons
  exact replaceAfter_of_some (by simp [cons]) hit rfl

/-- A text begins with a character that stays, or with a break tag. -/
theorem breakTag_cases (previous : Option Char) (c : Char) (cs : Text) :
    breakTag previous (c :: cs) = none ∨ ∃ tag rest, IsBreakTag tag ∧ c :: cs = tag ++ rest := by
  cases hit : breakTag previous (c :: cs) with
  | none => exact .inl rfl
  | some h =>
    obtain ⟨tag, rest, isTag, split, _⟩ := breakTag_eq_some_iff.1 hit
    exact .inr ⟨tag, rest, isTag, split⟩

theorem length_lt_of_tag {c : Char} {cs tag rest : Text} (isTag : IsBreakTag tag)
    (split : c :: cs = tag ++ rest) : rest.length < (c :: cs).length := by
  obtain ⟨d, ds, rfl, _⟩ := isTag.exists_cons
  rw [split, List.length_append, List.length_cons]
  omega

/-- What is on one line after the line breaks came in was on one line before. -/
theorem infix_of_infix_replaceAfter {w : Text} (line : '\n' ∉ w) (previous : Option Char) (t : Text) :
    ∀ before, w <:+: before ++ replaceAfter breakTag previous t → w <:+: before ++ t := by
  induction hn : t.length using Nat.strongRecOn generalizing previous t with
  | ind n ih =>
    intro before inside
    cases t with
    | nil => simpa [replaceAfter_nil] using inside
    | cons c cs =>
      rcases breakTag_cases previous c cs with none | ⟨tag, rest, isTag, split⟩
      · rw [replaceAfter_of_none none] at inside
        have shorter : cs.length < n := by simp [← hn]
        simpa using ih _ shorter (some c) cs rfl (before ++ [c]) (by simpa using inside)
      · rw [split, replaceAfter_breakTag_append isTag] at inside
        rcases infix_append_cons line inside with left | right
        · exact left.trans (List.prefix_append _ _).isInfix
        · have shorter : rest.length < n := hn ▸ length_lt_of_tag isTag split
          have within := ih _ shorter _ rest rfl [] (by simpa using right)
          rw [split]
          exact within.trans ⟨before ++ tag, [], by simp⟩

/-- More text makes the text with line breaks longer, unless a break tag is only completed by it. -/
theorem eq_nil_of_prefix_replaceAfter (previous : Option Char) (t more : Text)
    (h : replaceAfter breakTag previous (t ++ more) <+: replaceAfter breakTag previous t) : more = [] := by
  induction hn : t.length using Nat.strongRecOn generalizing previous t with
  | ind n ih =>
    cases t with
    | nil =>
      cases more with
      | nil => rfl
      | cons c cs =>
        have nothing : replaceAfter breakTag previous (c :: cs) = [] := by
          simpa [replaceAfter_nil] using h
        rcases breakTag_cases previous c cs with none | ⟨tag, rest, isTag, split⟩
        · simp [replaceAfter_of_none none] at nothing
        · simp [split, replaceAfter_breakTag_append isTag] at nothing
    | cons c cs =>
      cases hit : breakTag previous (c :: cs) with
      | some hit' =>
        obtain ⟨tag, rest, isTag, split, _⟩ := breakTag_eq_some_iff.1 hit
        rw [split, List.append_assoc, replaceAfter_breakTag_append isTag, replaceAfter_breakTag_append isTag,
          List.cons_prefix_cons] at h
        exact ih _ (hn ▸ length_lt_of_tag isTag split) _ rest h.2 rfl
      | none =>
        rw [replaceAfter_of_none hit] at h
        rcases breakTag_cases previous c (cs ++ more) with none | ⟨tag, rest, isTag, split⟩
        · rw [List.cons_append, replaceAfter_of_none none, List.cons_prefix_cons] at h
          exact ih _ (by simp [← hn]) _ cs h.2 rfl
        · rw [List.cons_append, split, replaceAfter_breakTag_append isTag, List.cons_prefix_cons] at h
          obtain ⟨d, ds, rfl, line⟩ := isTag.exists_cons
          rw [List.cons_append, List.cons.injEq] at split
          exact absurd (split.1 ▸ h.1) line.symm

/-- Of two beginnings of a text that both end outside of break tags, the longer one is longer after
the line breaks came in. -/
theorem length_withLineBreaks_lt {t u whole : Text} (shorter : t <+: u) (lt : t.length < u.length)
    (left : withLineBreaks t <+: whole) (right : withLineBreaks u <+: whole) :
    (withLineBreaks t).length < (withLineBreaks u).length := by
  obtain ⟨more, rfl⟩ := shorter
  refine Nat.lt_of_not_le fun long => ?_
  have nothing := eq_nil_of_prefix_replaceAfter none t more
    (List.prefix_of_prefix_length_le right left long)
  simp [nothing] at lt

/-! ## Code in a document -/

/-- Code of a document that is still code after line breaks came in for break tags, and that no
formula takes in. -/
structure KeptCode (spans : List Entry) (output : Text) (source : Text → Text)
    (document before code : Text) : Prop where
  found : CodeRegion .empty document before code
  kept : FreeCode spans output source (withLineBreaks document) (withLineBreaks before) code

theorem protectLines_eq (session : Session) (lines : List Text) :
    (session.protectLines lines).1.spans =
        (protectWith ⟨session.settings.softParentheses, looksLikeMath⟩ .empty
          (withLineBreaks (Text.join ['\n'] lines))).1.spans ∧
      Text.join ['\n'] (session.protectLines lines).2 =
        (protectWith ⟨session.settings.softParentheses, looksLikeMath⟩ .empty
          (withLineBreaks (Text.join ['\n'] lines))).2 :=
  ⟨rfl, Text.join_lines _⟩

/-- Such code reaches Markdown as it is written, and in its order. -/
theorem protectLines_code_verbatim (session : Session) (lines : List Text)
    (fresh : ¬placeholderStart <:+: Text.join ['\n'] lines) :
    ∃ source,
      replaceWords ((session.protectLines lines).1.spans.map Entry.word) source
        (Text.join ['\n'] (session.protectLines lines).2) = withLineBreaks (Text.join ['\n'] lines) ∧
      ∀ regions : List (Text × Text), regions.Pairwise (·.1.length < ·.1.length) →
        (∀ r ∈ regions,
          KeptCode (session.protectLines lines).1.spans
            (Text.join ['\n'] (session.protectLines lines).2) source (Text.join ['\n'] lines) r.1 r.2) →
        InOrder (regions.map Prod.snd) (Text.join ['\n'] (session.protectLines lines).2) := by
  obtain ⟨spans, output⟩ := protectLines_eq session lines
  rw [spans, output]
  have line : '\n' ∉ placeholderStart := by decide
  have fresh' : ¬placeholderStart <:+: withLineBreaks (Text.join ['\n'] lines) := by
    intro inside
    exact fresh (infix_of_infix_replaceAfter line none _ [] inside)
  obtain ⟨source, text, code⟩ :=
    exists_inOrder_code ⟨session.settings.softParentheses, looksLikeMath⟩ fresh'
  refine ⟨source, text, fun regions ordered kept => ?_⟩
  have moved := code (regions.map fun r => (withLineBreaks r.1, r.2)) ?ordered ?free
  case ordered =>
    rw [List.pairwise_map]
    refine ordered.imp_of_mem fun {r r'} hr hr' lt => ?_
    have before := (List.prefix_append _ _).trans ((kept r hr).found.prefix_text fresh)
    have before' := (List.prefix_append _ _).trans ((kept r' hr').found.prefix_text fresh)
    exact length_withLineBreaks_lt (List.prefix_of_prefix_length_le before before' (Nat.le_of_lt lt)) lt
      ((List.prefix_append _ _).trans ((kept r hr).kept.found.prefix_text fresh'))
      ((List.prefix_append _ _).trans ((kept r' hr').kept.found.prefix_text fresh'))
  case free =>
    intro r hr
    obtain ⟨r, mem, rfl⟩ := List.mem_map.1 hr
    exact (kept r mem).kept
  simpa [Function.comp_def] using moved

/-- A span of code, from the scan that finds it in a text whose blocks of code have been set aside. -/
theorem codeRegion_of_scan {t before code : Text} (xs ys : List Segment) (content : Text)
    (scan : segments codeSpan (Store.empty.extractCode fencedCode t).2 = xs ++ .found code content :: ys)
    (left : Store.restoreCode (Store.empty.extractCode fencedCode t).1.code
      (xs.flatMap Segment.source) = before)
    (here : Store.restoreCode (Store.empty.extractCode fencedCode t).1.code code = code) :
    CodeRegion .empty t before code := by
  have region := CodeRegion.span (s := .empty) ⟨xs, content, ys, scan, rfl⟩
  rw [left, here] at region
  exact region

/-- Where there are no formulas, none takes code in. -/
theorem freeCode_of_no_formulas {carrier t before code : Text} {source : Text → Text}
    (found : CodeRegion .empty t before code) : FreeCode [] carrier source t before code := by
  refine ⟨found, ?_⟩
  rintro before' word ⟨xs, written, ys, cut, _⟩
  have whole : segmentsAfter (wordIn []) none (carrier ++ []) =
      carrier.map .plain ++ segmentsAfter (wordIn []) (lastChar none carrier) [] :=
    segmentsAfter_append fun _ _ _ _ => rfl
  have plain : segments (wordIn []) carrier = carrier.map .plain := by
    simpa [segments, segmentsAfter] using whole
  have mem : Segment.found written word ∈ carrier.map .plain := by
    rw [← plain]
    exact cut ▸ List.mem_append_right xs List.mem_cons_self
  simp at mem

theorem protectLines_code_verbatim_besideBreakTag :
    ¬placeholderStart <:+: Text.join ['\n'] ["`a$b`<br>`$c$`".toList] ∧
      InOrder ["`a$b`".toList, "`$c$`".toList]
        (Text.join ['\n'] ((Session.new ⟨true, .native, true, .tireless⟩).protectLines
          ["`a$b`<br>`$c$`".toList]).2) := by
  have fresh : ¬placeholderStart <:+: Text.join ['\n'] ["`a$b`<br>`$c$`".toList] := by
    rw [← Text.contains_iff_infix]
    decide
  have none : ((Session.new ⟨true, .native, true, .tireless⟩).protectLines
      ["`a$b`<br>`$c$`".toList]).1.spans = [] :=
    List.isEmpty_iff.1 (by decide +kernel)
  obtain ⟨source, _, code⟩ := protectLines_code_verbatim
    (Session.new ⟨true, .native, true, .tireless⟩) _ fresh
  refine ⟨fresh, code [([], "`a$b`".toList), ("`a$b`<br>".toList, "`$c$`".toList)] (by decide) ?_⟩
  rw [none]
  intro r hr
  simp only [List.mem_cons, List.not_mem_nil, or_false] at hr
  rcases hr with rfl | rfl
  · refine ⟨codeRegion_of_scan [] ("<br>".toList.map .plain ++ [.found "`$c$`".toList []]) [] ?_ ?_ ?_,
      freeCode_of_no_formulas (codeRegion_of_scan [] [.plain '\n', .found "`$c$`".toList []] []
        ?_ ?_ ?_)⟩ <;> decide +kernel
  · refine ⟨codeRegion_of_scan (.found "`a$b`".toList [] :: "<br>".toList.map .plain) [] [] ?_ ?_ ?_,
      freeCode_of_no_formulas (codeRegion_of_scan [.found "`a$b`".toList [], .plain '\n'] [] []
        ?_ ?_ ?_)⟩ <;> decide +kernel

/-- Code that has a break tag in it is broken apart. -/
theorem protectLines_breakTag_in_code (session : Session) :
    CodeRegion .empty (Text.join ['\n'] ["`<br>`".toList]) [] "`<br>`".toList ∧
      Text.join ['\n'] (session.protectLines ["`<br>`".toList]).2 = "`\n`".toList := by
  constructor
  · exact codeRegion_of_scan [] [] [] (by decide +kernel) (by decide +kernel) (by decide +kernel)
  · have output : ∀ soft, (protectWith ⟨soft, looksLikeMath⟩ .empty (withLineBreaks "`<br>`".toList)).2 =
        "`\n`".toList := by
      intro soft
      cases soft <;> decide +kernel
    exact (protectLines_eq session _).2.trans (output _)

end OfficeFormula.Markdown
