import OfficeFormula.Proofs.Clipboard
import OfficeFormula.Proofs.Omml.WellFormed

/-!
# Formulas are pasted as well-formed text

Every character of what is pasted for a formula comes from a tag, a reference, a table of glyphs or the
formula itself. The first three may stand in a document; escaping leaves the characters of the formula
as they are, apart from those that markup reserves. So the names and the tags are always right, and a
formula is pasted as a well-formed text unless it brings in a character that no document may hold
(`wellFormed_compile_native`).
-/

namespace OfficeFormula.Latex

open Markup.Xml (isAllowed WellFormed)
open Omml (Node)

/-! ## The characters of a formula -/

theorem suffix_of_afterLineEnd? {t rest : Text} (h : Text.afterLineEnd? t = some rest) : rest <:+ t := by
  unfold Text.afterLineEnd? at h
  split at h
  · next found =>
    rw [← Option.some.inj h]
    exact (List.suffix_cons _ _).trans (found ▸ List.dropWhile_suffix _)
  · simp at h

/-- A repaired formula has no new characters but the backslash and the line end. -/
theorem mem_repairAfter (previous : Option Char) (t : Text) :
    ∀ c ∈ repairAfter previous t, c ∈ t ∨ c = '\\' ∨ c = '\n' := by
  fun_induction repairAfter previous t with
  | case1 => simp
  | case2 previous c cs _ rest found _ ih =>
    have inside {d : Char} (hd : d ∈ rest) : d ∈ c :: cs :=
      List.mem_cons_of_mem c ((suffix_of_afterLineEnd? found).subset hd)
    simp only [List.forall_mem_cons, true_or, or_true, true_and]
    exact fun d hd => (ih d hd).imp_left inside
  | case3 previous c cs _ _ ih =>
    rw [List.forall_mem_cons]
    exact ⟨by simp, fun d hd => (ih d hd).imp_left (List.mem_cons_of_mem c)⟩
  | case4 previous c cs _ ih =>
    rw [List.forall_mem_cons]
    exact ⟨by simp, fun d hd => (ih d hd).imp_left (List.mem_cons_of_mem c)⟩

theorem mem_of_mem_trim {t : Text} {c : Char} (h : c ∈ t.trim) : c ∈ t := by
  rw [Text.trim, Text.trimEnd, List.mem_reverse] at h
  have h := (List.dropWhile_sublist _).subset h
  rw [List.mem_reverse] at h
  exact (List.dropWhile_sublist _).subset h

/-! ## The markup of a formula -/

theorem isAllowed_commandGlyphs : commandGlyphs.all isAllowed = true := by decide

theorem lawful_bigOperator {A : Char → Prop} (allowed : ∀ c, isAllowed c = true → A c) {name : String}
    {glyph : Char} (known : role name = .bigOperator glyph) {sub sup : Option (List Node)}
    (hsub : ∀ ns ∈ sub, Throughout (Node.Lawful A) ns) (hsup : ∀ ns ∈ sup, Throughout (Node.Lawful A) ns) :
    (Omml.nary [glyph] sub sup [] (some (limitPlace [glyph]))).Lawful A := by
  have slot {script : Option (List Node)} (h : ∀ ns ∈ script, Throughout (Node.Lawful A) ns) :
      ∀ n ∈ script.getD [], n.Lawful A := by
    cases script with
    | none => simp
    | some ns => exact h ns rfl
  have mark : A glyph :=
    Omml.mem_literal allowed isAllowed_commandGlyphs glyph (mem_commandGlyphs_of_role (.inl known))
  have place : ∀ c ∈ limitPlace [glyph], A c := by
    unfold limitPlace
    split
    · exact Omml.mem_literal allowed (by decide)
    · exact Omml.mem_literal allowed (by decide)
  have hidden := allowed '1' (by decide)
  have properties : (Omml.naryProperties [glyph] sub sup (some (limitPlace [glyph]))).Lawful A := by
    unfold Omml.naryProperties
    simp (disch := decide) only [Omml.lawful_element, List.forall_mem_append]
    refine ⟨⟨⟨?_, ?_⟩, ?_⟩, ?_⟩
    · simpa (disch := decide) [Omml.lawful_property] using mark
    · split
      · simp
      · simpa (disch := decide) [Omml.lawful_property] using place
    · split
      · simpa (disch := decide) [Omml.lawful_property] using hidden
      · simp
    · split
      · simpa (disch := decide) [Omml.lawful_property] using hidden
      · simp
  simpa (disch := decide) [Omml.nary, Omml.lawful_element] using ⟨properties, slot hsub, slot hsup⟩

/-- What characters a formula may bring into its markup decides what characters the markup has. -/
theorem hereditary_lawful {A : Char → Prop} (allowed : ∀ c, isAllowed c = true → A c) :
    Hereditary A (Node.Lawful A) where
  run plain h := Omml.lawful_run allowed h plain
  fraction hnum hden := by
    simpa (disch := decide) [Omml.fraction, Omml.lawful_element] using ⟨hnum, hden⟩
  squareRoot h := by
    have hidden := allowed '1' (by decide)
    simpa (disch := decide) [Omml.radical, Omml.lawful_element, Omml.lawful_property] using ⟨hidden, h⟩
  root hbase hdegree := by
    simpa (disch := decide) [Omml.radical, Omml.lawful_element] using ⟨hdegree, hbase⟩
  scripts {base sub sup} some hbase hsub hsup := by
    cases sub with
    | none =>
      cases sup with
      | none => exact absurd rfl some
      | some sup =>
        simpa (disch := decide) [Omml.scripts, Omml.lawful_element] using ⟨hbase, hsup sup rfl⟩
    | some sub =>
      cases sup with
      | none => simpa (disch := decide) [Omml.scripts, Omml.lawful_element] using ⟨hbase, hsub sub rfl⟩
      | some sup =>
        simpa (disch := decide) [Omml.scripts, Omml.lawful_element] using
          ⟨hbase, hsub sub rfl, hsup sup rfl⟩
  bigOperator := lawful_bigOperator allowed
  matrix {rows} _ _ _ _ h := by
    simp (disch := decide) only [Omml.matrix, Omml.lawful_element, List.forall_mem_map]
    exact fun row hrow cell hcell => h cell (List.mem_flatten.2 ⟨row, hrow, hcell⟩)
  equations _ h := by
    simp (disch := decide) only [Omml.equationArray, Omml.lawful_element, List.forall_mem_map]
    exact h
  brackets entry hentry := by
    have listed : ∀ entry ∈ matrixBrackets, (entry.2.1 ++ entry.2.2).all isAllowed = true := by decide
    exact Omml.mem_literal allowed (listed entry hentry)

theorem supplied_tokenize {A : Char → Prop} (allowed : ∀ c, isAllowed c = true → A c) {formula : Text}
    (h : ∀ c ∈ formula, A c) : Supplied A (tokenize formula) where
  tokens _ htoken c hc := h c ((text_of_mem_tokenize htoken).2 hc)
  texts _ htoken := (text_of_mem_tokenize htoken).1
  glyphs := Omml.mem_literal allowed isAllowed_commandGlyphs

/-- What the native engine pastes has lawful names, and its characters are allowed or come from the
source. -/
theorem lawful_lowerNative {A : Char → Prop} (allowed : ∀ c, isAllowed c = true → A c) (host : Host)
    {source : Text} (h : ∀ c ∈ source, A c) (display : Bool) :
    ∀ n ∈ (lowerNative host source (repairLineBreaks source.trim) display).nodes, n.Lawful A := by
  have formula : ∀ c ∈ repairLineBreaks source.trim, A c := by
    intro c hc
    rcases mem_repairAfter none source.trim c hc with hc | rfl | rfl
    · exact h c (mem_of_mem_trim hc)
    · exact allowed _ (by decide)
    · exact allowed _ (by decide)
  have fallback : ∀ n ∈ (Lowered.ofText source display).nodes, n.Lawful A := by
    simpa [Lowered.ofText] using Omml.lawful_run allowed h false
  unfold lowerNative
  cases host.latexFailure? (tokenize (repairLineBreaks source.trim)) with
  | some cause => exact fallback
  | none =>
    obtain ⟨nodes, markup, lawful⟩ :=
      (hereditary_lawful allowed).succeeds_parse (supplied_tokenize allowed formula)
    rw [markup]
    exact lawful

/-- What is pasted for a formula is well formed exactly if its characters may stand in a document, and those
that may not are characters of the formula. -/
theorem wellFormed_compile_native (host : Host) (source : Text) (display : Bool) :
    let result := (compile host .native source display).value
    (WellFormed result ↔ ∀ c ∈ result, isAllowed c = true) ∧
      ∀ c ∈ result, isAllowed c = true ∨ c ∈ source := by
  intro result
  have lowered : lower host .native source display =
      lowerNative host source (repairLineBreaks source.trim) display := by
    simp [lower]
  have text : result = _ := (pasted_compile host .native source display).text
  rw [lowered] at text
  have allowed : ∀ c, isAllowed c = true → isAllowed c = true ∨ c ∈ source := fun _ => .inl
  have lawful := lawful_lowerNative allowed host (fun _ => .inr) display
  have written := Omml.mem_renderAll fun n hn => (lawful n hn).mem_render allowed
  rw [text]
  exact ⟨Omml.wellFormed_template_iff lawful _, Omml.mem_template allowed written _⟩

/-- A control character is pasted as it is, and no document may hold it. -/
theorem wellFormed_compile_native_control :
    let result := (compile .tireless .native ['a', '\x01', 'b'] false).value
    '\x01' ∈ result ∧ ¬WellFormed result := by
  intro result
  have kept : '\x01' ∈ result := by decide +kernel
  refine ⟨kept, fun h => ?_⟩
  have allowed := (wellFormed_compile_native .tireless ['a', '\x01', 'b'] false).1.1 h
  exact absurd (allowed '\x01' kept) (by decide)

end OfficeFormula.Latex
