import OfficeFormula.Proofs.Latex.Markup

/-!
# The reading order of the markup

`Expr.yield` is the text of an expression in reading order: the nucleus, then its subscript, then its
superscript. The markup of an expression has that text and no other (`flatMap_textContent_markup`), whichever
structures it is made of: every slot is printed once and in its place, cells that fill up a matrix are empty,
and the glyph of a big operator is a property.
-/

namespace OfficeFormula

namespace Omml

open Node (textContentAll)

/-! ## The text of each structure -/

namespace Node

@[simp] theorem textContentAll_nil : textContentAll [] = [] := by rw [textContentAll]

@[simp] theorem textContentAll_cons (n : Node) (ns : List Node) :
    textContentAll (n :: ns) = n.textContent ++ textContentAll ns := by
  rw [textContentAll]

theorem textContentAll_singleton (n : Node) : textContentAll [n] = n.textContent := by
  rw [textContentAll_cons, textContentAll_nil, List.append_nil]

/-- The text of nodes is that of each, in their order. -/
theorem textContentAll_eq_flatMap (ns : List Node) : textContentAll ns = ns.flatMap textContent := by
  induction ns with
  | nil => rw [textContentAll_nil, List.flatMap_nil]
  | cons n ns ih => rw [textContentAll_cons, ih, List.flatMap_cons]

@[simp] theorem textContentAll_append (ns ms : List Node) :
    textContentAll (ns ++ ms) = textContentAll ns ++ textContentAll ms := by
  simp only [textContentAll_eq_flatMap, List.flatMap_append]

theorem textContentAll_flatten (slots : List (List Node)) :
    textContentAll slots.flatten = slots.flatMap textContentAll := by
  induction slots with
  | nil => rw [List.flatten_nil, textContentAll_nil, List.flatMap_nil]
  | cons slot slots ih => rw [List.flatten_cons, textContentAll_append, ih, List.flatMap_cons]

end Node

@[simp] theorem textContent_element (tag : String) (ns : List Node) :
    (element tag ns).textContent = textContentAll ns := by
  rw [element, Node.textContent]

@[simp] theorem textContent_property (tag : String) (value : Text) :
    (property tag value).textContent = [] := by
  rw [property, Node.textContent, Node.textContentAll_nil]

@[simp] theorem textContent_runText (t : Text) : (runText t).textContent = t := by
  rw [runText, Node.textContent]
  split
  · next empty => rw [empty, Node.textContentAll_nil]
  · rw [Node.textContentAll_singleton, Node.textContent]

theorem textContent_run (t : Text) (plain : Bool) : (run t plain).textContent = t := by
  rw [run, Node.textContent]
  cases plain <;> simp

theorem textContent_formula (ns : List Node) : (formula ns).textContent = textContentAll ns :=
  textContent_element "oMath" ns

theorem textContent_fraction (num den : List Node) :
    (fraction num den).textContent = textContentAll num ++ textContentAll den := by
  simp [fraction]

/-- The degree of a root is read before its base. -/
theorem textContent_radical (base degree : List Node) (hideDegree : Bool) :
    (radical base degree hideDegree).textContent = textContentAll degree ++ textContentAll base := by
  cases hideDegree <;> simp [radical]

/-- Scripts come behind their base, the lower one first. -/
theorem textContent_scripts (base : List Node) (sub sup : Option (List Node)) :
    (scripts base sub sup).textContent =
      textContentAll base ++ (textContentAll (sub.getD []) ++ textContentAll (sup.getD [])) := by
  cases sub <;> cases sup <;> simp [scripts]

theorem textContent_naryProperties (glyph : Text) (sub sup : Option (List Node)) (limits : Option Text) :
    (naryProperties glyph sub sup limits).textContent = [] := by
  have hidden (tag : String) (script : Option (List Node)) :
      textContentAll (if script.isNone then [property tag ['1']] else []) = [] := by
    split <;> simp
  unfold naryProperties
  simp only [textContent_element, Node.textContentAll_append, hidden, List.append_nil]
  cases limits with
  | none => simp
  | some place =>
    dsimp only
    split <;> simp

/-- Without a body, a big operator has the text of its limits. -/
theorem textContent_nary (glyph : Text) (sub sup : Option (List Node)) (limits : Option Text) :
    (nary glyph sub sup [] limits).textContent =
      textContentAll (sub.getD []) ++ textContentAll (sup.getD []) := by
  simp [nary, textContent_naryProperties]

theorem textContentAll_map_element (tag : String) (slots : List (List Node)) :
    textContentAll (slots.map (element tag)) = slots.flatMap textContentAll := by
  rw [Node.textContentAll_eq_flatMap, List.flatMap_map]
  simp only [textContent_element]

theorem textContent_equationArray (lines : List (List Node)) :
    (equationArray lines).textContent = lines.flatMap textContentAll := by
  rw [equationArray, textContent_element, textContentAll_map_element]

/-- A matrix is read row by row. -/
theorem textContent_matrix (rows : List (List (List Node))) :
    (matrix rows).textContent = rows.flatMap (List.flatMap textContentAll) := by
  rw [matrix, textContent_element, Node.textContentAll_eq_flatMap, List.flatMap_map]
  simp only [textContent_element, textContentAll_map_element]

end Omml

namespace Latex

open Omml (Node)
open Omml.Node (textContentAll)

/-! ## The text of an expression -/

mutual

/-- The text of an expression, in reading order. -/
def Expr.yield : Expr → Text
  | .mk n sub sup => n.yield ++ (yieldOpt sub ++ yieldOpt sup)

/-- The text of a nucleus without its scripts. -/
def Nucleus.yield : Nucleus → Text
  | .root items => yieldAll items
  | .group items => yieldAll items
  | .frac num den => num.yield ++ den.yield
  | .sqrt base => base.yield
  | .radical base degree => yieldOpt degree ++ base.yield
  | .nary _ => []
  | .atom _ value => value
  | .environment name rows =>
    -- Only a matrix stands in brackets.
    let (opening, closing) := (brackets? name).getD ([], [])
    opening ++ (yieldRows rows ++ closing)
  | .empty => []
  | .hole => []

def yieldOpt : Option Expr → Text
  | none => []
  | some e => e.yield

def yieldAll : List Expr → Text
  | [] => []
  | e :: es => e.yield ++ yieldAll es

def yieldRows : List (List Expr) → Text
  | [] => []
  | row :: rows => yieldAll row ++ yieldRows rows

end

theorem yield_plain (n : Nucleus) : n.plain.yield = n.yield := by
  rw [Nucleus.plain, Expr.yield, yieldOpt, List.append_nil, List.append_nil]

theorem yield_atom (kind : AtomKind) (value : Text) : (Expr.atom kind value).yield = value := by
  rw [Expr.atom, yield_plain, Nucleus.yield]

theorem yield_empty : Expr.empty.yield = [] := by
  rw [Expr.empty, yield_plain, Nucleus.yield]

/-- Braces have no text. -/
theorem yield_group (items : List Expr) : (Expr.group items).yield = yieldAll items := by
  rw [Expr.group, yield_plain, Nucleus.yield]

/-! ## The text of an environment -/

/-- A bracket is a run, and no bracket no text. -/
theorem textContentAll_bracketRun (bracket : Text) : textContentAll (bracketRun bracket) = bracket := by
  rw [bracketRun]
  split
  · next empty => rw [empty, Node.textContentAll_nil]
  · rw [Node.textContentAll_singleton, Omml.textContent_run]

/-- Cells that fill up a row have no text. -/
theorem flatMap_textContentAll_padRow (width : Nat) (row : List (List Node)) :
    (padRow width row).flatMap textContentAll = row.flatMap textContentAll := by
  have filling (k : Nat) : (List.replicate k []).flatMap textContentAll = [] := by
    simp [List.flatMap_replicate]
  rw [padRow, List.flatMap_append, filling, List.append_nil]

/-- The text of a printed environment is that of its cells, row by row, in the brackets of a matrix. -/
theorem textContentAll_environmentMarkup {name : String} {rows : List (List (List Node))} {ns : List Node}
    (h : environmentMarkup name rows = .ok ns) :
    textContentAll ns = ((brackets? name).getD ([], [])).1 ++
      (rows.flatMap (List.flatMap textContentAll) ++ ((brackets? name).getD ([], [])).2) := by
  rw [environmentMarkup] at h
  split at h
  · next opening closing found =>
    rw [found, Option.getD_some]
    split at h
    · cases h
    · next width _ =>
      cases h
      have padded : (Omml.matrix (rows.map (padRow width))).textContent =
          rows.flatMap (List.flatMap textContentAll) := by
        rw [Omml.textContent_matrix, List.flatMap_map]
        simp only [flatMap_textContentAll_padRow]
      simp only [Node.textContentAll_append, Node.textContentAll_singleton,
        textContentAll_bracketRun, padded, List.append_assoc]
  · next none =>
    rw [none, Option.getD_none, List.nil_append, List.append_nil]
    -- The lines have the text of the rows, whether there is one of them or more.
    have lines : (rows.map List.flatten).flatMap textContentAll = rows.flatMap (List.flatMap textContentAll) := by
      rw [List.flatMap_map]
      simp only [Node.textContentAll_flatten]
    rw [← lines]
    split at h
    · next line one =>
      cases h
      rw [one, List.flatMap_cons, List.flatMap_nil, List.append_nil]
    · cases h
      rw [Node.textContentAll_singleton, Omml.textContent_equationArray]

/-! ## The text of the markup of an expression -/

/-- Putting scripts on a base puts their texts behind it. -/
theorem textContentAll_withScripts (base : List Node) (sub sup : Option (List Node)) :
    textContentAll (withScripts base sub sup) =
      textContentAll base ++ (textContentAll (sub.getD []) ++ textContentAll (sup.getD [])) := by
  rw [withScripts]
  split
  · next neither =>
    rw [Bool.and_eq_true, Option.isNone_iff_eq_none, Option.isNone_iff_eq_none] at neither
    rw [neither.1, neither.2, Option.getD_none, Node.textContentAll_nil, List.append_nil, List.append_nil]
  · rw [Node.textContentAll_singleton, Omml.textContent_scripts]

mutual

/-- The nodes of an expression have its text, by induction over the expression. -/
theorem textContentAll_markup : (e : Expr) → {ns : List Node} → e.markup = .ok ns →
    textContentAll ns = e.yield
  | .mk n sub sup, ns, h => by
    rw [Expr.yield]
    by_cases big : ∃ op, n = .nary op
    · obtain ⟨op, rfl⟩ := big
      rw [Expr.markup] at h
      obtain ⟨lower, hlower, h⟩ := exists_of_bind_eq_ok h
      obtain ⟨upper, hupper, h⟩ := exists_of_bind_eq_ok h
      cases h
      rw [Node.textContentAll_singleton, Omml.textContent_nary,
        textContentAll_markupOpt sub hlower, textContentAll_markupOpt sup hupper, Nucleus.yield, List.nil_append]
    · rw [Expr.markup] at h
      case x_1 => exact fun op he => big ⟨op, he⟩
      obtain ⟨base, hbase, h⟩ := exists_of_bind_eq_ok h
      obtain ⟨lower, hlower, h⟩ := exists_of_bind_eq_ok h
      obtain ⟨upper, hupper, h⟩ := exists_of_bind_eq_ok h
      cases h
      rw [textContentAll_withScripts, textContentAll_nucleus n hbase, textContentAll_markupOpt sub hlower,
        textContentAll_markupOpt sup hupper]

theorem textContentAll_nucleus : (n : Nucleus) → {ns : List Node} → n.markup = .ok ns →
    textContentAll ns = n.yield
  | .root items, ns, h => by
    rw [Nucleus.markup] at h
    rw [Nucleus.yield, textContentAll_markupAll items h]
  | .group items, ns, h => by
    rw [Nucleus.markup] at h
    rw [Nucleus.yield, textContentAll_markupAll items h]
  | .frac num den, ns, h => by
    rw [Nucleus.markup] at h
    obtain ⟨nums, hnums, h⟩ := exists_of_bind_eq_ok h
    obtain ⟨dens, hdens, h⟩ := exists_of_bind_eq_ok h
    cases h
    rw [Node.textContentAll_singleton, Omml.textContent_fraction,
      textContentAll_markup num hnums, textContentAll_markup den hdens, Nucleus.yield]
  | .sqrt base, ns, h => by
    rw [Nucleus.markup] at h
    obtain ⟨bases, hbases, h⟩ := exists_of_bind_eq_ok h
    cases h
    rw [Node.textContentAll_singleton, Omml.textContent_radical,
      Node.textContentAll_nil, List.nil_append, textContentAll_markup base hbases, Nucleus.yield]
  | .radical base degree, ns, h => by
    rw [Nucleus.markup] at h
    obtain ⟨degrees, hdegrees, h⟩ := exists_of_bind_eq_ok h
    obtain ⟨bases, hbases, h⟩ := exists_of_bind_eq_ok h
    cases h
    rw [Node.textContentAll_singleton, Omml.textContent_radical,
      textContentAll_markupOpt degree hdegrees, textContentAll_markup base hbases, Nucleus.yield]
  | .nary op, ns, h => by
    rw [Nucleus.markup] at h
    cases h
    rw [Node.textContentAll_singleton, Omml.textContent_nary, Option.getD_none, Node.textContentAll_nil,
      List.append_nil, Nucleus.yield]
  | .atom kind value, ns, h => by
    rw [Nucleus.markup] at h
    cases h
    rw [Node.textContentAll_singleton, Omml.textContent_run, Nucleus.yield]
  | .environment name rows, ns, h => by
    rw [Nucleus.markup] at h
    obtain ⟨printed, hprinted, h⟩ := exists_of_bind_eq_ok h
    rw [textContentAll_environmentMarkup h, textContentAll_markupRows rows hprinted, Nucleus.yield]
  | .empty, ns, h => by
    rw [Nucleus.markup] at h
    cases h
    rw [Node.textContentAll_nil, Nucleus.yield]
  | .hole, ns, h => by
    rw [Nucleus.markup] at h
    cases h

theorem textContentAll_markupOpt : (e : Option Expr) → {nodes : Option (List Node)} →
    markupOpt e = .ok nodes → textContentAll (nodes.getD []) = yieldOpt e
  | none, nodes, h => by
    rw [markupOpt] at h
    cases h
    rw [Option.getD_none, Node.textContentAll_nil, yieldOpt]
  | some e, nodes, h => by
    rw [markupOpt] at h
    obtain ⟨ns, hns, h⟩ := exists_of_bind_eq_ok h
    cases h
    rw [Option.getD_some, textContentAll_markup e hns, yieldOpt]

theorem textContentAll_markupAll : (es : List Expr) → {ns : List Node} → markupAll es = .ok ns →
    textContentAll ns = yieldAll es
  | [], ns, h => by
    rw [markupAll] at h
    cases h
    rw [Node.textContentAll_nil, yieldAll]
  | e :: es, ns, h => by
    rw [markupAll] at h
    obtain ⟨first, hfirst, h⟩ := exists_of_bind_eq_ok h
    obtain ⟨later, hlater, h⟩ := exists_of_bind_eq_ok h
    cases h
    rw [Node.textContentAll_append, textContentAll_markup e hfirst, textContentAll_markupAll es hlater,
      yieldAll]

theorem textContentAll_markupCells : (es : List Expr) → {cells : List (List Node)} →
    markupCells es = .ok cells → cells.flatMap textContentAll = yieldAll es
  | [], cells, h => by
    rw [markupCells] at h
    cases h
    rw [List.flatMap_nil, yieldAll]
  | e :: es, cells, h => by
    rw [markupCells] at h
    obtain ⟨first, hfirst, h⟩ := exists_of_bind_eq_ok h
    obtain ⟨later, hlater, h⟩ := exists_of_bind_eq_ok h
    cases h
    rw [List.flatMap_cons, textContentAll_markup e hfirst, textContentAll_markupCells es hlater, yieldAll]

theorem textContentAll_markupRows : (rows : List (List Expr)) → {printed : List (List (List Node))} →
    markupRows rows = .ok printed → printed.flatMap (List.flatMap textContentAll) = yieldRows rows
  | [], printed, h => by
    rw [markupRows] at h
    cases h
    rw [List.flatMap_nil, yieldRows]
  | row :: rows, printed, h => by
    rw [markupRows] at h
    obtain ⟨first, hfirst, h⟩ := exists_of_bind_eq_ok h
    obtain ⟨later, hlater, h⟩ := exists_of_bind_eq_ok h
    cases h
    rw [List.flatMap_cons, textContentAll_markupCells row hfirst, textContentAll_markupRows rows hlater, yieldRows]

end

/-- The markup of an expression has its text, in reading order. -/
theorem flatMap_textContent_markup {e : Expr} {nodes : List Node} (h : e.markup = .ok nodes) :
    nodes.flatMap Node.textContent = e.yield := by
  rw [← Node.textContentAll_eq_flatMap]
  exact textContentAll_markup e h

/-- A sum with limits, a cube root, scripts written the other way round, and a row that is filled up. -/
theorem flatMap_textContent_markup_matrix :
    ∃ nodes, (parse ("\\begin\x7bpmatrix*\x7d \\sum_i^n & \\sqrt[3]\x7bx\x7d \\\\ " ++
        "y^2_1 \\end\x7bpmatrix*\x7d").toList).markup = .ok nodes ∧
      nodes.flatMap Node.textContent = "(in3xy12)".toList := by
  refine (succeeds_markup_parse _).imp fun nodes printed => ⟨printed.1, ?_⟩
  rw [flatMap_textContent_markup printed.1]
  decide +kernel

end Latex

end OfficeFormula
