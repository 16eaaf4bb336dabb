import OfficeFormula.Omml.Node

/-!
# The content model of formulas

Which slots a structure of a formula has, in which order, and what must agree with its properties. A
`Rule` says so of single structures, by relating each to the content of its slots. A node conforms to a
rule if it is one of the structures and all that stands in its slots conforms again (`Conforms`). So a
bare slot or row never stands where a structure is expected.

`CommonRule` has the structures that every formula may have. Where a formula comes from decides what
else there is.
-/

namespace OfficeFormula.Omml

/-- Says which nodes are structures, and what the content of their slots is. -/
abbrev Rule := Node → (slots : List (List Node)) → Prop

/-- The node is a structure, and so is all that stands in its slots. -/
inductive Conforms (rule : Rule) : Node → Prop where
  | of_rule {n : Node} {slots : List (List Node)} (shape : rule n slots)
      (inside : ∀ slot ∈ slots, ∀ m ∈ slot, Conforms rule m) : Conforms rule n

/-- The text of a run: at most one string, which is not empty. Blanks at its ends are marked. -/
inductive IsRunText : Node → Prop where
  | nothing : IsRunText (.element "m:t" [] [])
  | string {t : Text} (ne : t ≠ []) {attrs : List (String × Text)}
      (blanks : attrs = [] ∨ attrs = [("xml:space", "preserve".toList)]) :
      IsRunText (.element "m:t" attrs [.text t])

/-- The properties that a big operator may have besides its glyph. -/
def operatorMarks : List Node :=
  [property "limLoc" "undOver".toList, property "limLoc" "subSup".toList, property "subHide" ['1'],
    property "supHide" ['1']]

/-- The structures that all formulas have in common; `glyphs` are the big operators. -/
inductive CommonRule (glyphs : List Char) : Rule where
  | run {t : Node} (text : IsRunText t) : CommonRule glyphs (element "r" [t]) []
  | fraction (num den : List Node) :
      CommonRule glyphs (element "f" [element "num" num, element "den" den]) [num, den]
  /-- A root that hides its degree has none. -/
  | squareRoot (base : List Node) :
      CommonRule glyphs
        (element "rad" [element "radPr" [property "degHide" ['1']], element "deg" [], element "e" base])
        [base]
  | root (degree base : List Node) :
      CommonRule glyphs (element "rad" [element "deg" degree, element "e" base]) [degree, base]
  | subscript (base sub : List Node) :
      CommonRule glyphs (element "sSub" [element "e" base, element "sub" sub]) [base, sub]
  | superscript (base sup : List Node) :
      CommonRule glyphs (element "sSup" [element "e" base, element "sup" sup]) [base, sup]
  | subSuperscript (base sub sup : List Node) :
      CommonRule glyphs (element "sSubSup" [element "e" base, element "sub" sub, element "sup" sup])
        [base, sub, sup]
  /-- A hidden limit is empty. -/
  | nary {glyph : Char} (known : glyph ∈ glyphs) {marks : List Node} (listed : ∀ p ∈ marks, p ∈ operatorMarks)
      {sub sup : List Node} (hiddenSub : property "subHide" ['1'] ∈ marks → sub = [])
      (hiddenSup : property "supHide" ['1'] ∈ marks → sup = []) (body : List Node) :
      CommonRule glyphs
        (element "nary" [element "naryPr" (property "chr" [glyph] :: marks), element "sub" sub,
          element "sup" sup, element "e" body])
        [sub, sup, body]

/-! ## The structures as they are built -/

theorem isRunText_runText (t : Text) : IsRunText (runText t) := by
  unfold runText
  by_cases empty : t = []
  · subst empty
    exact .nothing
  · rw [if_neg empty]
    refine .string empty ?_
    split
    · exact .inl rfl
    · exact .inr rfl

/-- Properties with different names differ. -/
theorem property_ne_of_tag {tag tag' : String} (h : "m:" ++ tag ≠ "m:" ++ tag') (value value' : Text) :
    property tag value ≠ property tag' value' := by
  intro same
  exact h (Node.element.inj same).1

section Structures

variable {rule : Rule} {glyphs : List Char}
  (common : ∀ {n : Node} {slots : List (List Node)}, CommonRule glyphs n slots → rule n slots)
include common

theorem conforms_run (t : Text) : Conforms rule (run t false) :=
  .of_rule (common (.run (isRunText_runText t))) (by simp)

theorem conforms_fraction {num den : List Node} (hnum : ∀ n ∈ num, Conforms rule n)
    (hden : ∀ n ∈ den, Conforms rule n) : Conforms rule (fraction num den) :=
  .of_rule (common (.fraction num den)) (by simpa using ⟨hnum, hden⟩)

theorem conforms_squareRoot {base : List Node} (h : ∀ n ∈ base, Conforms rule n) :
    Conforms rule (radical base [] true) :=
  .of_rule (common (.squareRoot base)) (by simpa using h)

theorem conforms_root {base degree : List Node} (hbase : ∀ n ∈ base, Conforms rule n)
    (hdegree : ∀ n ∈ degree, Conforms rule n) : Conforms rule (radical base degree false) :=
  .of_rule (common (.root degree base)) (by simpa using ⟨hdegree, hbase⟩)

/-- A base with at least one script. -/
theorem conforms_scripts {base : List Node} {sub sup : Option (List Node)}
    (some : ¬(sub.isNone && sup.isNone) = true) (hbase : ∀ n ∈ base, Conforms rule n)
    (hsub : ∀ ns ∈ sub, ∀ n ∈ ns, Conforms rule n) (hsup : ∀ ns ∈ sup, ∀ n ∈ ns, Conforms rule n) :
    Conforms rule (scripts base sub sup) := by
  cases sub with
  | none =>
    cases sup with
    | none => exact absurd rfl some
    | some sup =>
      exact .of_rule (common (.superscript base sup)) (by simpa using ⟨hbase, hsup sup rfl⟩)
  | some sub =>
    cases sup with
    | none => exact .of_rule (common (.subscript base sub)) (by simpa using ⟨hbase, hsub sub rfl⟩)
    | some sup =>
      exact .of_rule (common (.subSuperscript base sub sup))
        (by simpa using ⟨hbase, hsub sub rfl, hsup sup rfl⟩)

/-- A big operator whose limits stand where `place` says. A limit that is left out is hidden. -/
theorem conforms_nary {glyph : Char} (known : glyph ∈ glyphs) {place : Text}
    (listed : property "limLoc" place ∈ operatorMarks) (ne : place ≠ []) {sub sup : Option (List Node)}
    (hsub : ∀ ns ∈ sub, ∀ n ∈ ns, Conforms rule n) (hsup : ∀ ns ∈ sup, ∀ n ∈ ns, Conforms rule n) :
    Conforms rule (nary [glyph] sub sup [] (some place)) := by
  have hidden {tag : String} {script : Option (List Node)} {p : Node}
      (h : p ∈ if script.isNone then [property tag ['1']] else []) :
      p = property tag ['1'] ∧ script.getD [] = [] := by
    cases script with
    | none => exact ⟨by simpa using h, rfl⟩
    | some ns => simp at h
  have slot {script : Option (List Node)} (h : ∀ ns ∈ script, ∀ n ∈ ns, Conforms rule n) :
      ∀ n ∈ script.getD [], Conforms rule n := by
    cases script with
    | none => simp
    | some ns => exact h ns rfl
  -- A mark of the operator is its place, or the hiding of a limit that has been left out.
  have marks : nary [glyph] sub sup [] (some place) =
      element "nary" [element "naryPr" (property "chr" [glyph] ::
          (property "limLoc" place :: ((if sub.isNone then [property "subHide" ['1']] else []) ++
            if sup.isNone then [property "supHide" ['1']] else []))),
        element "sub" (sub.getD []), element "sup" (sup.getD []), element "e" []] := by
    simp [nary, naryProperties, ne]
  rw [marks]
  refine .of_rule (common (.nary known ?_ ?_ ?_ [])) (by simpa using ⟨slot hsub, slot hsup⟩)
  · intro p hp
    rcases List.mem_cons.1 hp with rfl | hp
    · exact listed
    · rcases List.mem_append.1 hp with hp | hp
      · rw [(hidden hp).1]
        simp [operatorMarks]
      · rw [(hidden hp).1]
        simp [operatorMarks]
  · intro hp
    rcases List.mem_cons.1 hp with same | hp
    · exact absurd same (property_ne_of_tag (by decide) _ _)
    · rcases List.mem_append.1 hp with hp | hp
      · exact (hidden hp).2
      · exact absurd (hidden hp).1 (property_ne_of_tag (by decide) _ _)
  · intro hp
    rcases List.mem_cons.1 hp with same | hp
    · exact absurd same (property_ne_of_tag (by decide) _ _)
    · rcases List.mem_append.1 hp with hp | hp
      · exact absurd (hidden hp).1 (property_ne_of_tag (by decide) _ _)
      · exact (hidden hp).2

end Structures

end OfficeFormula.Omml
