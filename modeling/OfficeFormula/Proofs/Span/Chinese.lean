import OfficeFormula.Proofs.Span.Parentheses
import OfficeFormula.Proofs.Span.Working
import OfficeFormula.Proofs.Text.Fold

/-!
# Chinese characters in formulas

Plain parentheses are taken for a formula only if no Chinese character stands in them. What is looked at is the
working text, where formulas and code have given way to placeholders, and what is kept is their content. So
a Chinese character can still get into the formula, but only from there: the formula has it exactly if it
stands in something that the parentheses take in (`mem_content_soft_iff`).
-/

namespace OfficeFormula

/-- A character that is no part of what is replaced is lost nowhere, and is new only where something is
replaced by a text with it. -/
theorem Text.mem_replaceAll_iff {part new : Text} (ne : part ≠ []) {c : Char} (other : c ∉ part) (t : Text) :
    c ∈ replaceAll part new t ↔ c ∈ t ∨ part <:+: t ∧ c ∈ new := by
  induction length : t.length using Nat.strongRecOn generalizing t with | ind n ih => ?_
  by_cases first : part <+: t
  · obtain ⟨rest, rfl⟩ := first
    have shorter : rest.length < n := by
      have := List.length_pos_iff.2 ne
      rw [← length, List.length_append]
      omega
    have here : part <:+: part ++ rest := (List.prefix_append part rest).isInfix
    rw [replaceAll_append ne, List.mem_append, ih _ shorter rest rfl, List.mem_append]
    simp only [other, here, false_or, true_and]
    constructor
    · rintro (inside | inside | ⟨_, inside⟩)
      · exact .inr inside
      · exact .inl inside
      · exact .inr inside
    · rintro (inside | inside)
      · exact .inr (.inl inside)
      · exact .inl inside
  · cases t with
    | nil => simp [replaceAll_nil ne, ne]
    | cons d ds =>
      rw [replaceAll_cons ne new first, List.mem_cons, ih _ (by simp [← length]) ds rfl, List.mem_cons,
        List.infix_cons_iff, or_iff_right first, or_assoc]

namespace Span

/-! ## What a text takes in -/

namespace Store

/-- What comes in place of a placeholder when the text is set aside as a formula: the content of a formula, or a
piece of code. Code is put back in its order, and may bring in the placeholder of the next. -/
inductive TakesIn (s : Store) (t : Text) : Text → Prop where
  | formula {word : Text} {e : Entry} (shown : word ∈ placeholdersIn t) (known : find? s.spans word = some e) :
      TakesIn s t e.content
  | code {i : Nat} {inside : Text} (listed : s.code[i]? = some inside)
      (shown : codePlaceholder i <:+: restoreCode (s.code.take i) (expand s.spans t).2) : TakesIn s t inside

/-- What is kept of a text that is set aside as a formula. -/
def recorded (s : Store) (t : Text) : Text := restoreCode s.code (expand s.spans t).2

end Store

section Content

variable {c : Char}

theorem mem_restoreCodeFrom_iff (other : ∀ i, c ∉ codePlaceholder i) (code : List Text) (n : Nat) (t : Text) :
    c ∈ Store.restoreCodeFrom n code t ↔ c ∈ t ∨ ∃ i inside, code[i]? = some inside ∧
      codePlaceholder (n + i) <:+: Store.restoreCodeFrom n (code.take i) t ∧ c ∈ inside := by
  induction code generalizing n t with
  | nil => simp [Store.restoreCodeFrom]
  | cons first more ih =>
    have ne : codePlaceholder n ≠ [] := by simp [codePlaceholder, placeholderStart_eq]
    rw [Store.restoreCodeFrom, ih, Text.mem_replaceAll_iff ne (other n), or_assoc]
    refine or_congr_right ?_
    constructor
    · rintro (⟨shown, inside⟩ | ⟨i, text, listed, shown, inside⟩)
      · exact ⟨0, first, rfl, shown, inside⟩
      · refine ⟨i + 1, text, listed, ?_, inside⟩
        rwa [Nat.add_comm i 1, ← Nat.add_assoc, Nat.add_comm 1 i]
    · rintro ⟨i, text, listed, shown, inside⟩
      cases i with
      | zero =>
        obtain rfl := Option.some.inj listed
        exact .inl ⟨shown, inside⟩
      | succ i =>
        refine .inr ⟨i, text, listed, ?_, inside⟩
        rwa [Nat.add_comm i 1, ← Nat.add_assoc, Nat.add_comm 1 i] at shown

section TakeOver

variable (spans : List Entry) {word : Text}

theorem mem_takeOver_iff (alone : c ∉ word) :
    c ∈ (Store.takeOver spans word).2 ↔ ∃ e, Store.find? spans word = some e ∧ c ∈ e.content := by
  unfold Store.takeOver
  cases Store.find? spans word with
  | none => simp [alone]
  | some e => simp

theorem find?_takeOver_self : Store.find? (Store.takeOver spans word).1 word = none := by
  unfold Store.takeOver
  cases known : Store.find? spans word with
  | none => exact known
  | some e => simp [Store.find?, Store.erase]

theorem find?_takeOver {other : Text} (ne : other ≠ word) :
    Store.find? (Store.takeOver spans word).1 other = Store.find? spans other := by
  unfold Store.takeOver
  cases Store.find? spans word with
  | none => rfl
  | some e =>
    rw [Store.find?, Store.erase, List.find?_filter, Store.find?]
    congr 1
    funext e
    by_cases same : e.word = other
    · simp [same, ne]
    · simp [same]

end TakeOver

/-- A text that is expanded gains what stands in the entries that it shows. -/
theorem mem_substitute_takeOver_iff {segs : List Segment} (plain : .plain c ∉ segs)
    (words : ∀ source word, .found source word ∈ segs → c ∉ word) (spans : List Entry) :
    c ∈ (substitute (fun spans _ word => Store.takeOver spans word) spans segs).2 ↔
      ∃ source word e, .found source word ∈ segs ∧ Store.find? spans word = some e ∧ c ∈ e.content := by
  induction segs generalizing spans with
  | nil => simp [substitute]
  | cons seg segs ih =>
    rw [List.mem_cons, not_or] at plain
    have later := ih plain.2 fun source word h => words source word (List.mem_cons_of_mem _ h)
    cases seg with
    | plain d =>
      have ne : c ≠ d := fun same => plain.1 (same ▸ rfl)
      simp [substitute, ne, later]
    | found source word =>
      have alone := words source word List.mem_cons_self
      simp only [substitute, List.mem_append, List.mem_cons, Segment.found.injEq]
      rw [later, mem_takeOver_iff spans alone]
      -- The entry is gone from then on, and the others are still there.
      constructor
      · rintro (⟨e, known, inside⟩ | ⟨source', word', e, h, known, inside⟩)
        · exact ⟨source, word, e, .inl ⟨rfl, rfl⟩, known, inside⟩
        · have ne : word' ≠ word := by
            rintro rfl
            rw [find?_takeOver_self] at known
            cases known
          exact ⟨source', word', e, .inr h, (find?_takeOver spans ne).symm.trans known, inside⟩
      · rintro ⟨source', word', e, h, known, inside⟩
        by_cases same : word' = word
        · exact .inl ⟨e, same ▸ known, inside⟩
        · rcases h with ⟨_, rfl⟩ | h
          · exact absurd rfl same
          · exact .inr ⟨source', word', e, h, (find?_takeOver spans same).trans known, inside⟩

theorem subset_of_found_placeholderForm {previous : Option Char} {t source word : Text}
    (h : .found source word ∈ segmentsAfter placeholderForm previous t) : word ⊆ t := by
  fun_induction segmentsAfter placeholderForm previous t with
  | case1 => cases h
  | case2 previous d ds none ih =>
    rcases List.mem_cons.1 h with same | h
    · cases same
    · exact List.Subset.trans (ih h) (List.subset_cons_self d ds)
  | case3 previous d ds hit found source' ih =>
    rcases List.mem_cons.1 h with same | h
    · obtain ⟨more, rest, text, _, rfl⟩ := exists_of_placeholderForm found
      rw [(Segment.found.inj same).2, text]
      exact List.subset_append_left _ rest
    · exact List.Subset.trans (ih h) (List.Subset.trans (List.drop_subset _ ds) (List.subset_cons_self d ds))

theorem mem_expand_iff {t : Text} (other : c ∉ t) (spans : List Entry) :
    c ∈ (Store.expand spans t).2 ↔
      ∃ word ∈ placeholdersIn t, ∃ e, Store.find? spans word = some e ∧ c ∈ e.content := by
  have plain : .plain c ∉ segments placeholderForm t := by
    intro h
    have inside : c ∈ (segments placeholderForm t).flatMap Segment.source :=
      List.mem_flatMap.2 ⟨_, h, List.mem_singleton_self c⟩
    rw [flatMap_source_segments] at inside
    exact other inside
  have words (source word : Text) (h : .found source word ∈ segments placeholderForm t) : c ∉ word :=
    fun inside => other (subset_of_found_placeholderForm h inside)
  have shown (word : Text) : word ∈ placeholdersIn t ↔ ∃ source, .found source word ∈ segments placeholderForm t := by
    unfold placeholdersIn
    rw [List.mem_filterMap]
    constructor
    · rintro ⟨seg, h, same⟩
      cases seg with
      | plain d => cases same
      | found source word' =>
        obtain rfl := Option.some.inj same
        exact ⟨source, h⟩
    · rintro ⟨source, h⟩
      exact ⟨_, h, rfl⟩
  rw [Store.expand, mem_substitute_takeOver_iff plain words]
  simp only [shown]
  constructor
  · rintro ⟨source, word, e, h, found, inside⟩
    exact ⟨word, ⟨source, h⟩, e, found, inside⟩
  · rintro ⟨word, ⟨source, h⟩, e, found, inside⟩
    exact ⟨source, word, e, h, found, inside⟩

/-- A character that neither the text nor a placeholder has is recorded exactly if something that is taken in
has it. -/
theorem mem_recorded_iff {s : Store} {t : Text} (other : c ∉ t) (words : ∀ i, c ∉ codePlaceholder i) :
    c ∈ s.recorded t ↔ ∃ inside, s.TakesIn t inside ∧ c ∈ inside := by
  rw [Store.recorded, Store.restoreCode, mem_restoreCodeFrom_iff words, mem_expand_iff other]
  constructor
  · rintro (⟨word, shown, e, known, inside⟩ | ⟨i, text, listed, shown, inside⟩)
    · exact ⟨e.content, .formula shown known, inside⟩
    · rw [Nat.zero_add] at shown
      exact ⟨text, .code listed shown, inside⟩
  · rintro ⟨text, taken, inside⟩
    cases taken with
    | @formula word e shown known => exact .inl ⟨word, shown, e, known, inside⟩
    | @code i _ listed shown =>
      refine .inr ⟨i, text, listed, ?_, inside⟩
      rw [Nat.zero_add]
      exact shown

end Content

/-! ## What the search in parentheses adds -/

theorem expand_fst_subset (spans : List Entry) (t : Text) : (Store.expand spans t).1 ⊆ spans := by
  rw [Store.expand]
  generalize segments placeholderForm t = segs
  induction segs generalizing spans with
  | nil => exact List.Subset.refl _
  | cons seg segs ih =>
    cases seg with
    | plain d => exact ih spans
    | found source word =>
      have fewer : (Store.takeOver spans word).1 ⊆ spans := by
        unfold Store.takeOver
        split
        · exact List.filter_sublist.subset
        · exact List.Subset.refl _
      exact List.Subset.trans (ih _) fewer

/-- Something that is found in the text, with what has been set aside before it. -/
def IsFound (isMath : Text → Bool) (s : Store) (segs : List Segment) (s' : Store) (source content : Text) : Prop :=
  ∃ before after, segs = before ++ .found source content :: after ∧
    s' = (substitute (Store.replaceGroup isMath) s before).1

/-- A new entry is the record of a group that is taken for a formula. -/
theorem exists_found_of_mem {isMath : Text → Bool} {segs : List Segment} {s : Store} {e : Entry}
    (h : e ∈ (substitute (Store.replaceGroup isMath) s segs).1.spans) (new : e ∉ s.spans) :
    ∃ s' source content, IsFound isMath s segs s' source content ∧ isMath content = true ∧
      e = ⟨s'.next, .inline, s'.recorded content⟩ := by
  induction segs generalizing s with
  | nil => exact absurd h new
  | cons seg segs ih =>
    cases seg with
    | plain d =>
      obtain ⟨s', source, content, ⟨before, after, rfl, rfl⟩, math, same⟩ := ih h new
      exact ⟨_, source, content, ⟨.plain d :: before, after, rfl, rfl⟩, math, same⟩
    | found source content =>
      by_cases here : e ∈ (s.replaceGroup isMath source content).1.spans
      · refine ⟨s, source, content, ⟨[], segs, rfl, rfl⟩, ?_⟩
        unfold Store.replaceGroup at here
        split at here
        · next taken =>
          simp only [Store.add, List.mem_append, List.mem_singleton] at here
          rcases here with old | rfl
          · exact absurd (expand_fst_subset _ _ old) new
          · exact ⟨(Bool.and_eq_true .. ▸ taken).1, rfl⟩
        · exact absurd here new
      · obtain ⟨s', source', content', ⟨before, after, rfl, rfl⟩, math, same⟩ := ih h here
        exact ⟨_, source', content', ⟨.found source content :: before, after, rfl, rfl⟩, math, same⟩

/-- What is set aside, and the text that is left, before plain parentheses are looked at. -/
def beforeParentheses (t : Text) : Store × Text :=
  let coded := (Store.empty.extractCode fencedCode t).1.extractCode codeSpan (Store.empty.extractCode fencedCode t).2
  extractAll ⟨false, looksLikeMath⟩ coded.1 coded.2

theorem protectWith_parentheses (isMath : Text → Bool) (t : Text) :
    (protectWith ⟨true, isMath⟩ .empty t).1 =
      (substitute (Store.replaceGroup isMath) (beforeParentheses t).1 (softSegments none (beforeParentheses t).2)).1 := by
  have whole := protectWith_eq ⟨true, isMath⟩ (s := .empty) (t := t) rfl
  rw [whole, ← softScan_outside isMath (beforeParentheses t).1 none []]
  rfl

theorem source_of_mem_softSegments {previous : Option Char} {t source content : Text}
    (h : .found source content ∈ softSegments previous t) : source = Store.inParentheses content := by
  fun_induction softSegments previous t with
  | case1 => cases h
  | case2 => simp at h
  | case3 previous c cs _ n closed ih =>
    rcases List.mem_cons.1 h with same | h
    · obtain ⟨rfl, rfl⟩ := Segment.found.inj same
      rfl
    · exact ih h
  | case4 previous c cs _ ih =>
    rcases List.mem_cons.1 h with same | h
    · cases same
    · exact ih h

/-- The text has the parentheses with this content, and `s` is what has been set aside before they are closed. -/
def IsGroup (t : Text) (s : Store) (content : Text) : Prop :=
  IsFound looksLikeMath (beforeParentheses t).1 (softSegments none (beforeParentheses t).2) s
    (Store.inParentheses content) content

/-- What looks like a formula has no Chinese character in it. -/
theorem not_isChinese_of_looksLikeMath {t : Text} (h : looksLikeMath t = true) : ∀ c ∈ t, isChinese c = false := by
  intro c hc
  rw [looksLikeMath, Bool.and_eq_true, Bool.not_eq_true', List.any_eq_false] at h
  simpa using h.1 c hc

theorem isMark_of_isChinese {c : Char} (h : isChinese c = true) : isMark c = true := by
  simp only [isChinese, Bool.and_eq_true, decide_eq_true_eq] at h
  have letter : isAsciiLetter c = false := by
    refine Bool.eq_false_iff.2 fun letter => ?_
    have := isAsciiLetter_iff.1 letter
    omega
  have digit : isAsciiDigit c = false := by
    refine Bool.eq_false_iff.2 fun digit => ?_
    simp only [isAsciiDigit, Bool.and_eq_true, decide_eq_true_eq, Char.le_def, UInt32.le_iff_toNat_le] at digit
    have last : ('9' : Char).val.toNat = 57 := rfl
    have code : c.val.toNat = c.toNat := rfl
    omega
  rw [isMark, letter, digit]
  rfl

/-- A formula in plain parentheses is a group without Chinese characters. It has such a character exactly if
something that the group takes in has it. -/
theorem mem_content_soft_iff {t : Text} {e : Entry}
    (added : e ∈ (protectWith ⟨true, looksLikeMath⟩ .empty t).1.spans) (new : e ∉ (beforeParentheses t).1.spans) :
    ∃ s content, IsGroup t s content ∧ e = ⟨s.next, .inline, s.recorded content⟩ ∧
      (∀ c ∈ content, isChinese c = false) ∧
      ∀ c, isChinese c = true → (c ∈ e.content ↔ ∃ inside, s.TakesIn content inside ∧ c ∈ inside) := by
  rw [protectWith_parentheses] at added
  obtain ⟨s, source, content, found, math, rfl⟩ := exists_found_of_mem added new
  have group : IsGroup t s content := by
    have mem : .found source content ∈ softSegments none (beforeParentheses t).2 := by
      obtain ⟨before, after, cut, _⟩ := found
      simp [cut]
    rwa [IsGroup, ← source_of_mem_softSegments mem]
  have free := not_isChinese_of_looksLikeMath math
  refine ⟨s, content, group, rfl, free, fun c chinese => mem_recorded_iff (fun h => ?_) fun i h => ?_⟩
  · rw [free c h] at chinese
    cases chinese
  · have letters := isMark_eq_false_of_mem_word (p := .code i) rfl c h
    rw [isMark_of_isChinese chinese] at letters
    cases letters

def Entry.fields (e : Entry) : Nat × Kind × Text := (e.index, e.kind, e.content)

/-- The formula and the code in the parentheses bring in a Chinese character each. -/
theorem mem_content_soft_both :
    ∃ e, e ∈ (protectWith ⟨true, looksLikeMath⟩ .empty "(x+$中$ `国`)".toList).1.spans ∧
      e ∉ (beforeParentheses "(x+$中$ `国`)".toList).1.spans ∧ e.content = "x+中 `国`".toList ∧
      ∃ s content, IsGroup "(x+$中$ `国`)".toList s content ∧ e = ⟨s.next, .inline, s.recorded content⟩ ∧
        (∀ c ∈ content, isChinese c = false) ∧
        ∀ c, isChinese c = true → (c ∈ e.content ↔ ∃ inside, s.TakesIn content inside ∧ c ∈ inside) := by
  have all : (1, Kind.inline, "x+中 `国`".toList) ∈
      (protectWith ⟨true, looksLikeMath⟩ .empty "(x+$中$ `国`)".toList).1.spans.map Entry.fields := by
    decide +kernel
  have before : (1, Kind.inline, "x+中 `国`".toList) ∉
      (beforeParentheses "(x+$中$ `国`)".toList).1.spans.map Entry.fields := by
    decide +kernel
  obtain ⟨e, added, fields⟩ := List.mem_map.1 all
  have new : e ∉ (beforeParentheses "(x+$中$ `国`)".toList).1.spans := by
    intro h
    exact before (fields ▸ List.mem_map_of_mem h)
  exact ⟨e, added, new, congrArg (·.2.2) fields, mem_content_soft_iff added new⟩

/-- A formula in plain parentheses with a Chinese character, from the formula in dollar signs inside. -/
theorem isChinese_content_soft :
    (protectWith ⟨true, looksLikeMath⟩ .empty "(x+$中$)".toList).1.spans.map Entry.fields =
        [(1, .inline, "x+中".toList)] ∧
      (beforeParentheses "(x+$中$)".toList).1.spans.map Entry.fields = [(0, .inline, "中".toList)] ∧
      isChinese '中' = true := by
  decide +kernel

end Span

end OfficeFormula
