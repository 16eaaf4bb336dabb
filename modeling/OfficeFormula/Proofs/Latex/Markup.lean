import OfficeFormula.Latex.Markup
import OfficeFormula.Proofs.Latex.Parsed
import OfficeFormula.Proofs.Omml.Quiet

/-!
# The markup of what has been read

The nodes of an expression are those of its parts, put together. What has been read always has markup.
A property of nodes that each structure of the markup takes over from its slots (`Hereditary`) holds
throughout the markup (`Hereditary.succeeds_parse`). So the markup keeps to the content model
(`MarkupRule`), whatever the formula is: short rows of a matrix are filled up, and a stack of equations
has more than one.
-/

namespace OfficeFormula.Latex

open Omml (Node)

/-- A printing step that succeeds has succeeded in its first part. -/
theorem exists_of_bind_eq_ok {ε α β : Type} {x : Except ε α} {f : α → Except ε β} {b : β}
    (h : x >>= f = .ok b) : ∃ a, x = .ok a ∧ f a = .ok b := by
  cases x with
  | error e => cases h
  | ok a => exact ⟨a, rfl, h⟩

/-! ## The nodes of an expression, from its parts -/

/-- Items are printed one after the other. -/
theorem markupAll_append {es es' : List Expr} {ns ns' : List Node}
    (h : markupAll es = .ok ns) (h' : markupAll es' = .ok ns') :
    markupAll (es ++ es') = .ok (ns ++ ns') := by
  induction es generalizing ns with
  | nil =>
    obtain rfl : [] = ns := Except.ok.inj h
    exact h'
  | cons e es ih =>
    rw [markupAll] at h
    obtain ⟨first, hfirst, h⟩ := exists_of_bind_eq_ok h
    obtain ⟨later, hlater, h⟩ := exists_of_bind_eq_ok h
    obtain rfl : first ++ later = ns := Except.ok.inj h
    rw [List.cons_append, markupAll, hfirst, ih hlater, List.append_assoc]
    rfl

theorem markupAll_singleton {e : Expr} {ns : List Node} (h : e.markup = .ok ns) :
    markupAll [e] = .ok ns := by
  rw [markupAll, markupAll, h]
  exact congrArg Except.ok (List.append_nil ns)

/-- A nucleus other than a big operator, with its scripts. -/
theorem markup_mk {n : Nucleus} (other : ∀ op, n ≠ .nary op) {base : List Node}
    {sub sup : Option Expr} {lower upper : Option (List Node)} (hbase : n.markup = .ok base)
    (hsub : markupOpt sub = .ok lower) (hsup : markupOpt sup = .ok upper) :
    (Expr.mk n sub sup).markup = .ok (withScripts base lower upper) := by
  rw [Expr.markup, hbase, hsub, hsup]
  · rfl
  · exact other

/-- An n-ary operator takes its scripts as limits. -/
theorem markup_nary {op : Text} {sub sup : Option Expr} {lower upper : Option (List Node)}
    (hsub : markupOpt sub = .ok lower) (hsup : markupOpt sup = .ok upper) :
    (Expr.mk (.nary op) sub sup).markup =
      .ok [Omml.nary op lower upper [] (some (limitPlace op))] := by
  rw [Expr.markup, hsub, hsup]
  rfl

theorem markupOpt_none : markupOpt none = .ok none := by
  rw [markupOpt]
  rfl

theorem markup_plain {n : Nucleus} (other : ∀ op, n ≠ .nary op) {base : List Node}
    (hbase : n.markup = .ok base) : n.plain.markup = .ok base :=
  markup_mk other hbase markupOpt_none markupOpt_none

theorem markup_group {es : List Expr} {ns : List Node} (h : markupAll es = .ok ns) :
    (Expr.group es).markup = .ok ns :=
  markup_plain (by simp) (by rw [Nucleus.markup, h])

theorem markupOpt_group {es : List Expr} {ns : List Node} (h : markupAll es = .ok ns) :
    markupOpt (some (.group es)) = .ok (some ns) := by
  rw [markupOpt, markup_group h]
  rfl

/-! ## Steps that succeed -/

/-- The computation succeeds, and `P` holds of its result. -/
def Succeeds {ε α : Type} (x : Except ε α) (P : α → Prop) : Prop := ∃ a, x = .ok a ∧ P a

namespace Succeeds

variable {ε α β : Type} {P : α → Prop} {Q : β → Prop}

theorem pure {a : α} (h : P a) : Succeeds (.ok a : Except ε α) P := ⟨a, rfl, h⟩

/-- Steps that succeed can be put after one another. -/
theorem bind {x : Except ε α} {f : α → Except ε β} (h : Succeeds x P)
    (next : ∀ a, P a → Succeeds (f a) Q) : Succeeds (x >>= f) Q := by
  obtain ⟨a, rfl, ha⟩ := h
  exact next a ha

end Succeeds

/-! ## Properties of all the nodes -/

/-- All the nodes have the property. -/
def Throughout (P : Node → Prop) (ns : List Node) : Prop := ∀ n ∈ ns, P n

namespace Throughout

variable {P : Node → Prop}

theorem nil : Throughout P [] := by simp [Throughout]

theorem singleton {n : Node} (h : P n) : Throughout P [n] := by
  simpa [Throughout] using h

theorem append {ns ms : List Node} (hns : Throughout P ns) (hms : Throughout P ms) :
    Throughout P (ns ++ ms) := by
  intro n hn
  rcases List.mem_append.1 hn with hn | hn
  · exact hns n hn
  · exact hms n hn

end Throughout

/-- A structure of the markup has the property `P` if all that stands in its slots has, and a run if its
characters satisfy `A`. -/
structure Hereditary (A : Char → Prop) (P : Node → Prop) : Prop where
  run {t : Text} (plain : Bool) (h : ∀ c ∈ t, A c) : P (Omml.run t plain)
  fraction {num den : List Node} (hnum : Throughout P num) (hden : Throughout P den) :
    P (Omml.fraction num den)
  squareRoot {base : List Node} (h : Throughout P base) : P (Omml.radical base [] true)
  root {base degree : List Node} (hbase : Throughout P base) (hdegree : Throughout P degree) :
    P (Omml.radical base degree false)
  scripts {base : List Node} {sub sup : Option (List Node)} (some : ¬(sub.isNone && sup.isNone) = true)
    (hbase : Throughout P base) (hsub : ∀ ns ∈ sub, Throughout P ns)
    (hsup : ∀ ns ∈ sup, Throughout P ns) : P (Omml.scripts base sub sup)
  bigOperator {name : String} {glyph : Char} (h : role name = .bigOperator glyph)
    {sub sup : Option (List Node)} (hsub : ∀ ns ∈ sub, Throughout P ns)
    (hsup : ∀ ns ∈ sup, Throughout P ns) : P (Omml.nary [glyph] sub sup [] (some (limitPlace [glyph])))
  /-- The rows of a matrix are of one length. -/
  matrix {rows : List (List (List Node))} (ne : rows ≠ []) {width : Nat} (wide : 0 < width)
    (filled : ∀ row ∈ rows, row.length = width) (h : ∀ cell ∈ rows.flatten, Throughout P cell) :
    P (Omml.matrix rows)
  equations {lines : List (List Node)} (several : 2 ≤ lines.length)
    (h : ∀ line ∈ lines, Throughout P line) : P (Omml.equationArray lines)
  brackets : ∀ entry ∈ matrixBrackets, ∀ c ∈ entry.2.1 ++ entry.2.2, A c

/-- Rows of cells that have been printed: there are rows, and cells in each. -/
structure Printed (P : Node → Prop) (rows : List (List (List Node))) : Prop where
  ne : rows ≠ []
  cells : ∀ row ∈ rows, row ≠ []
  inside : ∀ row ∈ rows, ∀ cell ∈ row, Throughout P cell

/-- A short row is filled up with empty cells. -/
theorem length_padRow {width : Nat} {row : List (List Node)} (h : row.length ≤ width) :
    (padRow width row).length = width := by
  rw [padRow, List.length_append, List.length_replicate]
  omega

namespace Hereditary

variable {A : Char → Prop} {P : Node → Prop}

/-! ## The markup of an environment -/

/-- The brackets around an environment are runs, where there are any. -/
theorem throughout_bracketRun (hereditary : Hereditary A P) {bracket : Text} (h : ∀ c ∈ bracket, A c) :
    Throughout P (bracketRun bracket) := by
  unfold bracketRun
  split
  · exact .nil
  · exact .singleton (hereditary.run false h)

/-- A matrix is as wide as its widest row. -/
theorem padded_matrix (hereditary : Hereditary A P) {rows : List (List (List Node))}
    (printed : Printed P rows) {width : Nat} (widest : (rows.map List.length).max? = some width) :
    P (Omml.matrix (rows.map (padRow width))) := by
  obtain ⟨reached, bound⟩ := List.max?_eq_some_iff.1 widest
  have wide : 0 < width := by
    obtain ⟨row, hrow, rfl⟩ := List.mem_map.1 reached
    exact List.length_pos_iff.2 (printed.cells row hrow)
  have filled : ∀ row ∈ rows.map (padRow width), row.length = width := by
    intro row hrow
    obtain ⟨cells, hcells, rfl⟩ := List.mem_map.1 hrow
    exact length_padRow (bound _ (List.mem_map_of_mem hcells))
  refine hereditary.matrix (by simpa using printed.ne) wide filled ?_
  intro cell hcell
  obtain ⟨row, hrow, hcell⟩ := List.mem_flatten.1 hcell
  obtain ⟨cells, hcells, rfl⟩ := List.mem_map.1 hrow
  rcases List.mem_append.1 hcell with hcell | hcell
  · exact printed.inside cells hcells cell hcell
  · rw [List.eq_of_mem_replicate hcell]
    exact .nil

/-- An environment is printed if its rows are, in whichever form its name asks for. -/
theorem succeeds_environment (hereditary : Hereditary A P) {rows : List (List (List Node))}
    (printed : Printed P rows) (name : String) : Succeeds (environmentMarkup name rows) (Throughout P) := by
  unfold environmentMarkup
  split
  · next opening closing found =>
    obtain ⟨before, after, table, _⟩ := List.lookup_eq_some_iff.1 found
    have known := hereditary.brackets (unstarred name, opening, closing) (by simp [table])
    rw [List.forall_mem_append] at known
    split
    · next none => exact absurd (by simpa using none) printed.ne
    · next width widest =>
      have matrix := Throughout.singleton (hereditary.padded_matrix printed widest)
      exact .pure (((hereditary.throughout_bracketRun known.1).append matrix).append
        (hereditary.throughout_bracketRun known.2))
  · have lines : ∀ line ∈ rows.map List.flatten, Throughout P line := by
      intro line hline n hn
      obtain ⟨row, hrow, rfl⟩ := List.mem_map.1 hline
      obtain ⟨cell, hcell, hn⟩ := List.mem_flatten.1 hn
      exact printed.inside row hrow cell hcell n hn
    split
    · next line one => exact .pure (lines line (by simp [one]))
    · next other =>
      refine .pure (.singleton (hereditary.equations ?_ lines))
      -- There is a row, and it is not the only one.
      have some := List.length_pos_iff.2 printed.ne
      have several : rows.length ≠ 1 := by
        intro one
        obtain ⟨row, rfl⟩ := List.length_eq_one_iff.1 one
        exact other row.flatten rfl
      rw [List.length_map]
      omega

/-! ## The markup of an expression -/

/-- Scripts put one node around the base, and without any the base stays as it is. -/
theorem throughout_withScripts (hereditary : Hereditary A P) {base : List Node}
    {sub sup : Option (List Node)} (hbase : Throughout P base)
    (hsub : ∀ ns ∈ sub, Throughout P ns) (hsup : ∀ ns ∈ sup, Throughout P ns) :
    Throughout P (withScripts base sub sup) := by
  unfold withScripts
  split
  · exact hbase
  · next some => exact .singleton (hereditary.scripts some hbase hsub hsup)

mutual

/-- What was built by the parser is printed, to nodes that have the property throughout. -/
theorem succeeds_markup (hereditary : Hereditary A P) :
    (e : Expr) → e.Built A → Succeeds e.markup (Throughout P)
  | .mk n sub sup, .mk nucleus hsub hsup => by
    by_cases big : ∃ op, n = .nary op
    · obtain ⟨op, rfl⟩ := big
      cases nucleus with
      | nary h =>
        rw [Expr.markup]
        refine (succeeds_markupOpt hereditary sub hsub).bind fun lower hlower => ?_
        refine (succeeds_markupOpt hereditary sup hsup).bind fun upper hupper => ?_
        exact .pure (.singleton (hereditary.bigOperator h hlower hupper))
    · rw [Expr.markup]
      case x_1 => exact fun op he => big ⟨op, he⟩
      refine (succeeds_nucleus hereditary n nucleus).bind fun base hbase => ?_
      refine (succeeds_markupOpt hereditary sub hsub).bind fun lower hlower => ?_
      refine (succeeds_markupOpt hereditary sup hsup).bind fun upper hupper => ?_
      exact .pure (hereditary.throughout_withScripts hbase hlower hupper)

theorem succeeds_nucleus (hereditary : Hereditary A P) :
    (n : Nucleus) → n.Built A → Succeeds n.markup (Throughout P)
  | .group items, .group h => by
    rw [Nucleus.markup]
    exact succeeds_markupAll hereditary items h
  | .frac num den, .frac hnum hden => by
    rw [Nucleus.markup]
    refine (succeeds_markup hereditary num hnum).bind fun nums hnums => ?_
    refine (succeeds_markup hereditary den hden).bind fun dens hdens => ?_
    exact .pure (.singleton (hereditary.fraction hnums hdens))
  | .sqrt base, .sqrt h => by
    rw [Nucleus.markup]
    refine (succeeds_markup hereditary base h).bind fun bases hbases => ?_
    exact .pure (.singleton (hereditary.squareRoot hbases))
  | .radical base degree, .radical hbase hdegree => by
    rw [Nucleus.markup]
    refine (succeeds_markupOpt hereditary degree hdegree).bind fun degrees hdegrees => ?_
    refine (succeeds_markup hereditary base hbase).bind fun bases hbases => ?_
    have slot : Throughout P (degrees.getD []) := by
      cases degrees with
      | none => exact .nil
      | some ns => exact hdegrees ns rfl
    exact .pure (.singleton (hereditary.root hbases slot))
  | .nary _, .nary h => by
    rw [Nucleus.markup]
    exact .pure (.singleton (hereditary.bigOperator h (by simp) (by simp)))
  | .atom kind value, .atom _ _ h => by
    rw [Nucleus.markup]
    exact .pure (.singleton (hereditary.run (isUpright kind value) h))
  | .environment name rows, .environment _ ne cells h => by
    rw [Nucleus.markup]
    refine (succeeds_markupRows hereditary rows h).bind fun printed hprinted => ?_
    refine hereditary.succeeds_environment ⟨?_, ?_, hprinted.2⟩ name
    · rintro rfl
      exact ne (by simpa using hprinted.1.symm)
    · rintro row hrow rfl
      have length : 0 ∈ rows.map List.length := by
        rw [← hprinted.1]
        exact List.mem_map_of_mem hrow
      obtain ⟨row, hrow, none⟩ := List.mem_map.1 length
      exact cells row hrow (List.length_eq_zero_iff.1 none)
  | .empty, _ => by
    rw [Nucleus.markup]
    exact .pure .nil

theorem succeeds_markupOpt (hereditary : Hereditary A P) :
    (script : Option Expr) → (∀ e ∈ script, e.Built A) →
      Succeeds (markupOpt script) fun nodes => ∀ ns ∈ nodes, Throughout P ns
  | none, _ => by
    rw [markupOpt]
    exact .pure (by simp)
  | some e, h => by
    rw [markupOpt]
    exact (succeeds_markup hereditary e (h e rfl)).bind fun ns hns => .pure (by simpa using hns)

theorem succeeds_markupAll (hereditary : Hereditary A P) :
    (es : List Expr) → (∀ e ∈ es, e.Built A) → Succeeds (markupAll es) (Throughout P)
  | [], _ => by
    rw [markupAll]
    exact .pure .nil
  | e :: es, h => by
    rw [List.forall_mem_cons] at h
    rw [markupAll]
    refine (succeeds_markup hereditary e h.1).bind fun ns hns => ?_
    exact (succeeds_markupAll hereditary es h.2).bind fun rest hrest => .pure (hns.append hrest)

theorem succeeds_markupCells (hereditary : Hereditary A P) :
    (es : List Expr) → (∀ e ∈ es, e.Built A) →
      Succeeds (markupCells es) fun cells =>
        cells.length = es.length ∧ ∀ cell ∈ cells, Throughout P cell
  | [], _ => by
    rw [markupCells]
    exact .pure (by simp)
  | e :: es, h => by
    rw [List.forall_mem_cons] at h
    rw [markupCells]
    refine (succeeds_markup hereditary e h.1).bind fun ns hns => ?_
    refine (succeeds_markupCells hereditary es h.2).bind fun rest hrest => .pure ⟨?_, ?_⟩
    · rw [List.length_cons, List.length_cons, hrest.1]
    · exact List.forall_mem_cons.2 ⟨hns, hrest.2⟩

theorem succeeds_markupRows (hereditary : Hereditary A P) :
    (rows : List (List Expr)) → (∀ row ∈ rows, ∀ e ∈ row, e.Built A) →
      Succeeds (markupRows rows) fun printed => printed.map List.length = rows.map List.length ∧
        ∀ row ∈ printed, ∀ cell ∈ row, Throughout P cell
  | [], _ => by
    rw [markupRows]
    exact .pure (by simp)
  | row :: rows, h => by
    rw [List.forall_mem_cons] at h
    rw [markupRows]
    refine (succeeds_markupCells hereditary row h.1).bind fun first hfirst => ?_
    refine (succeeds_markupRows hereditary rows h.2).bind fun rest hrest => .pure ⟨?_, ?_⟩
    · rw [List.map_cons, List.map_cons, hfirst.1, hrest.1]
    · exact List.forall_mem_cons.2 ⟨hfirst.2, hrest.2⟩

end

/-- What is hereditary holds throughout the markup of a formula. -/
theorem succeeds_parse (hereditary : Hereditary A P) {formula : Text} (supplied : Supplied A (tokenize formula)) :
    Succeeds (parse formula).markup (Throughout P) := by
  rw [parse, parseTokens, Nucleus.plain, Expr.markup]
  case x_1 => simp
  rw [Nucleus.markup, markupOpt_none]
  exact (hereditary.succeeds_markupAll _ (built_formulaItems (tokenize formula) supplied)).bind
    fun base hbase => .pure hbase

end Hereditary

/-! ## The content model -/

/-- The structures of the markup of a formula. -/
inductive MarkupRule : Omml.Rule where
  | common {n : Node} {slots : List (List Node)}
      (h : Omml.CommonRule (bigOperators.map Prod.snd) n slots) : MarkupRule n slots
  /-- A run that is set upright. -/
  | uprightRun {t : Node} (text : Omml.IsRunText t) :
      MarkupRule (Omml.element "r" [Omml.element "rPr" [Omml.property "sty" ['p']], t]) []
  /-- Every row of a matrix has as many cells as the others. -/
  | matrix {rows : List (List (List Node))} (ne : rows ≠ []) {width : Nat} (wide : 0 < width)
      (filled : ∀ row ∈ rows, row.length = width) :
      MarkupRule (Omml.element "m" (rows.map fun row => Omml.element "mr" (row.map (Omml.element "e"))))
        rows.flatten
  | equations {lines : List (List Node)} (several : 2 ≤ lines.length) :
      MarkupRule (Omml.element "eqArr" (lines.map (Omml.element "e"))) lines

/-- A command with the role of a big operator is in the table of big operators. -/
theorem mem_bigOperators_of_role {name : String} {glyph : Char} (h : role name = .bigOperator glyph) :
    glyph ∈ bigOperators.map Prod.snd := by
  unfold role at h
  repeat' split at h
  all_goals cases h
  next found =>
    obtain ⟨before, after, table, _⟩ := List.lookup_eq_some_iff.1 found
    simp [table]

theorem conforms_bigOperator {name : String} {glyph : Char} (h : role name = .bigOperator glyph)
    {sub sup : Option (List Node)} (hsub : ∀ ns ∈ sub, Throughout (Omml.Conforms MarkupRule) ns)
    (hsup : ∀ ns ∈ sup, Throughout (Omml.Conforms MarkupRule) ns) :
    Omml.Conforms MarkupRule (Omml.nary [glyph] sub sup [] (some (limitPlace [glyph]))) := by
  have place : limitPlace [glyph] = "undOver".toList ∨ limitPlace [glyph] = "subSup".toList := by
    unfold limitPlace
    split
    · exact .inl rfl
    · exact .inr rfl
  refine Omml.conforms_nary .common (mem_bigOperators_of_role h) ?_ ?_ hsub hsup
  · rcases place with place | place <;> simp [place, Omml.operatorMarks]
  · rcases place with place | place <;> simp [place]

theorem conforms_run (t : Text) (plain : Bool) : Omml.Conforms MarkupRule (Omml.run t plain) := by
  cases plain with
  | false => exact Omml.conforms_run .common t
  | true => exact .of_rule (.uprightRun (Omml.isRunText_runText t)) (by simp)

/-- Whether a structure keeps to the content model does not depend on its characters. -/
theorem hereditary_conforms : Hereditary (fun _ => True) (Omml.Conforms MarkupRule) where
  run plain _ := conforms_run _ plain
  fraction := Omml.conforms_fraction .common
  squareRoot := Omml.conforms_squareRoot .common
  root := Omml.conforms_root .common
  scripts := Omml.conforms_scripts .common
  bigOperator := conforms_bigOperator
  matrix ne _ wide filled h := .of_rule (.matrix ne wide filled) h
  equations several h := .of_rule (.equations several) h
  brackets := by simp

theorem succeeds_markup_parse (formula : Text) :
    Succeeds (parse formula).markup (Throughout (Omml.Conforms MarkupRule)) :=
  hereditary_conforms.succeeds_parse ⟨by simp, fun _ h => (text_of_mem_tokenize h).1, by simp⟩

/-- Every formula has markup, and all of it keeps to the content model. -/
theorem markup_parse_conforms (formula : Text) :
    ∃ nodes, (parse formula).markup = .ok nodes ∧ ∀ n ∈ nodes, Omml.Conforms MarkupRule n :=
  succeeds_markup_parse formula

/-! ## Quiet markup -/

/-- No form of node that is printed declares a namespace. -/
theorem quiet_markupRule {n : Node} {slots : List (List Node)} (shape : MarkupRule n slots)
    (inside : ∀ slot ∈ slots, ∀ m ∈ slot, m.Quiet) : n.Quiet := by
  cases shape with
  | common h => exact Omml.quiet_commonRule h inside
  | uprightRun text =>
    exact Omml.quiet_element (by decide) (by simpa using ⟨Omml.quiet_upright, Omml.quiet_runText text⟩)
  | matrix _ _ _ => exact Omml.quiet_matrix inside
  | @equations lines _ =>
    apply Omml.quiet_element (by decide)
    intro line hline
    obtain ⟨nodes, hnodes, rfl⟩ := List.mem_map.1 hline
    exact Omml.quiet_element (by decide) (inside nodes hnodes)

/-- The markup of a formula is quiet. -/
theorem quiet_markup_parse {formula : Text} {nodes : List Node} (lowered : (parse formula).markup = .ok nodes) :
    ∀ n ∈ nodes, n.Quiet := by
  obtain ⟨nodes', found, conforming⟩ := succeeds_markup_parse formula
  obtain rfl := Except.ok.inj (lowered.symm.trans found)
  exact fun n hn => (conforming n hn).quiet quiet_markupRule

end OfficeFormula.Latex
