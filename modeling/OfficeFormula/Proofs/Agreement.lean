import OfficeFormula.Latex.Compile
import OfficeFormula.Proofs.Clipboard
import OfficeFormula.Proofs.Latex.Markup
import OfficeFormula.Proofs.Latex.RoundTrip
import OfficeFormula.Proofs.Latex.Source
import OfficeFormula.Proofs.MathML.Structure
import OfficeFormula.Proofs.Omml.Wrapper

/-!
# LaTeX and MathML agree

What both languages can say: sequences, atoms, fractions, roots, scripts, and sums and products with limits
(`Core`). Such an expression has a LaTeX spelling and a MathML tree, and both are converted to the same
nodes (`Core.nodes`). So both are pasted as the same markup, without any message, on every host that follows
both conversions to their ends. Where one of them breaks off, the text is kept that was given
(`Core.compile_latex_eq_compile_math`).
-/

namespace OfficeFormula

open Latex (Expr Nucleus AtomKind isSpellable)

/-! ## Expressions -/

/-- Text that stands for itself in a formula. -/
inductive Atom where
  /-- A letter, or another character without a role. -/
  | letter (c : Char) (spellable : isSpellable .text [c] = true)
  /-- A letter that a command stands for. -/
  | symbol (c : Char) (spellable : isSpellable .symbol [c] = true)
  | number (digits : Text) (spellable : isSpellable .number digits = true)
  /-- An operator or a relation, with a character or a command for it. -/
  | operator (c : Char) (spellable : isSpellable .operator [c] = true)

/-- The operators whose scripts are limits above and below. -/
inductive BigOperator where
  | sum
  | product

mutual

/-- An expression that both languages can say. -/
inductive Core where
  | atom (a : Atom)
  | row (items : List Core)
  | fraction (num den : Core)
  | squareRoot (base : Core)
  | root (base degree : Core)
  | scripted (base : Core) (scripts : Marks)
  | bigOperator (op : BigOperator) (limits : Marks)

/-- What stands below and above something: one of the two, or both. -/
inductive Marks where
  | lower (e : Core)
  | upper (e : Core)
  | both (lower upper : Core)

end

namespace Atom

def kind : Atom → AtomKind
  | letter _ _ => .text
  | symbol _ _ => .symbol
  | number _ _ => .number
  | operator _ _ => .operator

def value : Atom → Text
  | letter c _ | symbol c _ | operator c _ => [c]
  | number digits _ => digits

/-- The element that an atom is in MathML. -/
def tag : Atom → String
  | letter _ _ | symbol _ _ => "mi"
  | number _ _ => "mn"
  | operator _ _ => "mo"

end Atom

def BigOperator.glyph : BigOperator → Char
  | sum => '∑'
  | product => '∏'

namespace Core

/-! ## The two spellings -/

/-- The items between the brackets of a root. They are in braces if one of them is a closing bracket, which would
end the degree. -/
def degreeItems (items : List Expr) : List Expr :=
  if items.any Expr.isClosingBracket then [.group items] else items

mutual

/-- The items of the LaTeX spelling. All arguments, scripted bases, scripts and limits are in braces. -/
def items : Core → List Expr
  | atom a => [.atom a.kind a.value]
  | row es => itemsAll es
  | fraction num den => [(Nucleus.frac (.group num.items) (.group den.items)).plain]
  | squareRoot base => [(Nucleus.sqrt (.group base.items)).plain]
  | root base degree =>
    [(Nucleus.radical (.group base.items) (some (.group (degreeItems degree.items)))).plain]
  | scripted base scripts => [markedItem (.group base.items) scripts]
  | bigOperator op limits => [markedItem (.nary [op.glyph]) limits]

def itemsAll : List Core → List Expr
  | [] => []
  | e :: es => e.items ++ itemsAll es

def markedItem (n : Nucleus) : Marks → Expr
  | .lower e => .mk n (some (.group e.items)) none
  | .upper e => .mk n none (some (.group e.items))
  | .both lower upper => .mk n (some (.group lower.items)) (some (.group upper.items))

end

/-- The LaTeX spelling, with a blank between any two tokens. -/
def latex (e : Core) : Text := (Nucleus.root e.items).plain.print

/-- The names of the elements for something below, above, and both. -/
structure MarkTags where
  lower : String
  upper : String
  both : String

def scriptTags : MarkTags := ⟨"msub", "msup", "msubsup"⟩

def limitTags : MarkTags := ⟨"munder", "mover", "munderover"⟩

def operatorTree (op : BigOperator) : Markup.Node := .element "mo" [] [.text [op.glyph]]

mutual

/-- The MathML of an expression. -/
def tree : Core → Markup.Node
  | atom a => .element a.tag [] [.text a.value]
  | row es => .element "mrow" [] (trees es)
  | fraction num den => .element "mfrac" [] [num.tree, den.tree]
  | squareRoot base => .element "msqrt" [] [base.tree]
  | root base degree => .element "mroot" [] [base.tree, degree.tree]
  | scripted base scripts => markedTree scriptTags base.tree scripts
  | bigOperator op limits => markedTree limitTags (operatorTree op) limits

def trees : List Core → List Markup.Node
  | [] => []
  | e :: es => e.tree :: trees es

def markedTree (tags : MarkTags) (base : Markup.Node) : Marks → Markup.Node
  | .lower e => .element tags.lower [] [base, e.tree]
  | .upper e => .element tags.upper [] [base, e.tree]
  | .both lower upper => .element tags.both [] [base, lower.tree, upper.tree]

end

/-- The whole formula in MathML. -/
def math (attrs : List Markup.Attr) (e : Core) : Markup.Node := .element "math" attrs [e.tree]

/-! ## What both are converted to -/

mutual

/-- The nodes that print an expression. -/
def nodes : Core → List Omml.Node
  | atom a => [Omml.run a.value false]
  | row es => nodesAll es
  | fraction num den => [Omml.fraction num.nodes den.nodes]
  | squareRoot base => [Omml.radical base.nodes [] true]
  | root base degree => [Omml.radical base.nodes degree.nodes false]
  | scripted base scripts => [markedNode (Omml.scripts base.nodes) scripts]
  | bigOperator op limits =>
    [markedNode (fun sub sup => Omml.nary [op.glyph] sub sup [] (some "undOver".toList)) limits]

def nodesAll : List Core → List Omml.Node
  | [] => []
  | e :: es => e.nodes ++ nodesAll es

def markedNode (f : Option (List Omml.Node) → Option (List Omml.Node) → Omml.Node) : Marks → Omml.Node
  | .lower e => f (some e.nodes) none
  | .upper e => f none (some e.nodes)
  | .both lower upper => f (some lower.nodes) (some upper.nodes)

end

end Core

/-! ## Atoms -/

theorem Atom.visible (a : Atom) : ∀ c ∈ a.value, isBlank c = false := by
  have inTable (table : List (String × Char)) (all : table.all (fun entry => !isBlank entry.2) = true)
      {c : Char} (h : Latex.hasGlyph table c = true) : isBlank c = false := by
    obtain ⟨entry, mem, found⟩ := List.any_eq_true.1 h
    have visible := List.all_eq_true.1 all entry mem
    simpa [of_decide_eq_true found] using visible
  cases a with
  | letter c spellable =>
    simp only [isSpellable, Bool.and_eq_true] at spellable
    simpa [value] using Latex.isBlank_of_isOrdinary spellable.1
  | symbol c spellable => simpa [value] using inTable Latex.symbols (by decide) spellable
  | number digits spellable => exact Latex.isBlank_of_isNumber spellable
  | operator c spellable =>
    simp only [isSpellable, Bool.or_eq_true] at spellable
    rcases spellable with char | relation
    · simpa [value] using Latex.isBlank_of_mem_operatorChars char
    · simpa [value] using inTable Latex.relations (by decide) relation

theorem Atom.trim_value (a : Atom) : a.value.trim = a.value := by
  apply Text.trim_eq_self
  · exact fun c hc => a.visible c (List.mem_of_mem_head? hc)
  · exact fun c hc => a.visible c (List.mem_of_getLast? hc)

theorem Atom.isSpellable_value (a : Atom) : isSpellable a.kind a.value = true := by
  cases a <;> assumption

/-- No atom is set upright, so the two compilers write the same run for it. -/
theorem Atom.isUpright_value (a : Atom) : Latex.isUpright a.kind a.value = false := by
  cases a with
  | letter c spellable => rw [Latex.isUpright, trim_value]; rfl
  | _ => rfl

theorem BigOperator.isSpelled (op : BigOperator) : Latex.isBigOperator [op.glyph] = true := by
  cases op <;> decide

/-! ## The LaTeX spelling -/

namespace Core

/-- Items are written one by one. -/
theorem allCanonical_iff {items : List Expr} :
    Latex.allCanonical items = true ↔ ∀ e ∈ items, e.isCanonical = true := by
  induction items with
  | nil => simp [Latex.allCanonical]
  | cons e items ih => rw [Latex.allCanonical, Bool.and_eq_true, ih, List.forall_mem_cons]

theorem allCanonical_singleton {n : Nucleus} (canonical : n.isCanonical = true) :
    Latex.allCanonical [n.plain] = true := by
  rw [Latex.allCanonical, Latex.allCanonical, Bool.and_true, Nucleus.plain, Expr.isCanonical, canonical]
  rfl

/-- A degree is spelled so that none of its items ends it. -/
theorem isBracedDegree_degreeItems {items : List Expr} (canonical : Latex.allCanonical items = true) :
    Latex.isBracedDegree (some (.group (degreeItems items))) = true := by
  rw [Latex.isBracedDegree, Bool.and_eq_true, degreeItems]
  split
  · have braced : (Nucleus.group items).isCanonical = true := by rw [Nucleus.isCanonical, canonical]
    exact ⟨allCanonical_singleton braced, rfl⟩
  · next free =>
    have unclosed : items.all (!·.isClosingBracket) = true := by simpa using free
    exact ⟨canonical, unclosed⟩

mutual

/-- The spelling can be read. -/
theorem canonical_items : (e : Core) → Latex.allCanonical e.items = true
  | atom a => allCanonical_singleton (by rw [Nucleus.isCanonical, a.isSpellable_value])
  | row es => canonical_itemsAll es
  | fraction num den => allCanonical_singleton (by
      rw [Nucleus.isCanonical, Bool.and_eq_true]
      exact ⟨canonical_items num, canonical_items den⟩)
  | squareRoot base => allCanonical_singleton (by
      rw [Nucleus.isCanonical]
      exact canonical_items base)
  | root base degree => allCanonical_singleton (by
      rw [Nucleus.isCanonical, Bool.and_eq_true]
      exact ⟨canonical_items base, isBracedDegree_degreeItems (canonical_items degree)⟩)
  | scripted base scripts => by
    have braced : (Nucleus.group base.items).isCanonical = true := by
      rw [Nucleus.isCanonical, canonical_items base]
    exact allCanonical_iff.2 (by simpa [items] using isCanonical_markedItem braced scripts)
  | bigOperator op limits => by
    have spelled : (Nucleus.nary [op.glyph]).isCanonical = true := by rw [Nucleus.isCanonical, op.isSpelled]
    exact allCanonical_iff.2 (by simpa [items] using isCanonical_markedItem spelled limits)

theorem canonical_itemsAll : (es : List Core) → Latex.allCanonical (itemsAll es) = true
  | [] => rfl
  | e :: es => allCanonical_iff.2 (List.forall_mem_append.2
      ⟨allCanonical_iff.1 (canonical_items e), allCanonical_iff.1 (canonical_itemsAll es)⟩)

/-- Scripts and limits are groups, and groups can be written after any base that can be. -/
theorem isCanonical_markedItem {n : Nucleus} (canonical : n.isCanonical = true) :
    (marks : Marks) → (markedItem n marks).isCanonical = true
  | .lower e => by
    rw [markedItem, Expr.isCanonical, canonical, Bool.true_and, Bool.and_eq_true]
    exact ⟨canonical_items e, rfl⟩
  | .upper e => by
    rw [markedItem, Expr.isCanonical, canonical, Bool.true_and, Bool.and_eq_true]
    exact ⟨rfl, canonical_items e⟩
  | .both lower upper => by
    rw [markedItem, Expr.isCanonical, canonical, Bool.true_and, Bool.and_eq_true]
    exact ⟨canonical_items lower, canonical_items upper⟩

end

/-! ## The nodes of the spelling -/

/-- Braces around a degree do not show. -/
theorem markupAll_degreeItems {items : List Expr} {ns : List Omml.Node} (h : Latex.markupAll items = .ok ns) :
    Latex.markupAll (degreeItems items) = .ok ns := by
  rw [degreeItems]
  split
  · exact Latex.markupAll_singleton (Latex.markup_group h)
  · exact h

mutual

/-- The spelling is read as the expression. -/
theorem markupAll_items : (e : Core) → Latex.markupAll e.items = .ok e.nodes
  | atom a => by
    apply Latex.markupAll_singleton
    apply Latex.markup_plain (by simp)
    rw [Nucleus.markup, a.isUpright_value]
    rfl
  | row es => markupAll_itemsAll es
  | fraction num den => by
    apply Latex.markupAll_singleton
    apply Latex.markup_plain (by simp)
    rw [Nucleus.markup, Latex.markup_group (markupAll_items num), Latex.markup_group (markupAll_items den)]
    rfl
  | squareRoot base => by
    apply Latex.markupAll_singleton
    apply Latex.markup_plain (by simp)
    rw [Nucleus.markup, Latex.markup_group (markupAll_items base)]
    rfl
  | root base degree => by
    apply Latex.markupAll_singleton
    apply Latex.markup_plain (by simp)
    rw [Nucleus.markup, Latex.markupOpt_group (markupAll_degreeItems (markupAll_items degree)),
      Latex.markup_group (markupAll_items base)]
    rfl
  | scripted base scripts => by
    apply Latex.markupAll_singleton
    have inside : (Nucleus.group base.items).markup = .ok base.nodes := by
      rw [Nucleus.markup, markupAll_items base]
    apply markup_markedItem _ scripts
    intro sub sup lower upper hsub hsup given
    rw [Latex.markup_mk (by simp) inside hsub hsup, Latex.withScripts, if_neg given]
  | bigOperator op limits => by
    apply Latex.markupAll_singleton
    have place : Latex.limitPlace [op.glyph] = "undOver".toList := by cases op <;> rfl
    apply markup_markedItem _ limits
    intro sub sup lower upper hsub hsup _
    rw [Latex.markup_nary hsub hsup, place]

theorem markupAll_itemsAll : (es : List Core) → Latex.markupAll (itemsAll es) = .ok (nodesAll es)
  | [] => rfl
  | e :: es => Latex.markupAll_append (markupAll_items e) (markupAll_itemsAll es)

/-- Whatever the marks are put on, one of them is given. -/
theorem markup_markedItem {n : Nucleus}
    {f : Option (List Omml.Node) → Option (List Omml.Node) → Omml.Node}
    (h : ∀ {sub sup lower upper}, Latex.markupOpt sub = .ok lower → Latex.markupOpt sup = .ok upper →
      ¬(lower.isNone && upper.isNone) = true → (Expr.mk n sub sup).markup = .ok [f lower upper]) :
    (marks : Marks) → (markedItem n marks).markup = .ok [markedNode f marks]
  | .lower e => h (Latex.markupOpt_group (markupAll_items e)) Latex.markupOpt_none (by simp)
  | .upper e => h Latex.markupOpt_none (Latex.markupOpt_group (markupAll_items e)) (by simp)
  | .both lower upper => h (Latex.markupOpt_group (markupAll_items lower))
      (Latex.markupOpt_group (markupAll_items upper)) (by simp)

end

/-! ## The MathML tree -/

open MathML (Converts ConvertsAll)

theorem kindOf_tag (a : Atom) : MathML.kindOf (MathML.plainName a.tag) = .token := by
  have tokens : ∀ tag ∈ ["mi", "mn", "mo"], MathML.kindOf (MathML.plainName tag) = .token := by decide
  apply tokens
  cases a <;> simp [Atom.tag]

/-- The element of an operator is told from its text. -/
theorem bigOperator?_operatorTree (op : BigOperator) :
    MathML.bigOperator? (operatorTree op) = some op.glyph := by
  cases op <;> decide

theorem converts_operatorTree (op : BigOperator) :
    Converts (operatorTree op) [Omml.run [op.glyph] false] :=
  .token (by decide) (by cases op <;> decide)

mutual

/-- The tree is converted to the expression. -/
theorem converts_tree : (e : Core) → Converts e.tree e.nodes
  | atom a => .token (kindOf_tag a) a.trim_value
  | row es => .row (by decide) (converts_trees es)
  | fraction num den =>
    .pair (by decide : _ = MathML.Kind.fraction) rfl (converts_tree num) (converts_tree den)
  | squareRoot base => .squareRoot (by decide) (converts_tree base).singleton
  | root base degree =>
    .pair (by decide : _ = MathML.Kind.root) rfl (converts_tree base) (converts_tree degree)
  | scripted base scripts => converts_scripted (converts_tree base) scripts
  | bigOperator op limits => converts_limits op limits

theorem converts_trees : (es : List Core) → ConvertsAll (trees es) (nodesAll es)
  | [] => .nil
  | e :: es => .cons (converts_tree e) (converts_trees es)

theorem converts_scripted {n : Markup.Node} {base : List Omml.Node} (hbase : Converts n base) :
    (scripts : Marks) → Converts (markedTree scriptTags n scripts) [markedNode (Omml.scripts base) scripts]
  | .lower e => .pair (by decide : _ = MathML.Kind.subscript) rfl hbase (converts_tree e)
  | .upper e => .pair (by decide : _ = MathML.Kind.superscript) rfl hbase (converts_tree e)
  | .both lower upper => .subSuperscript (by decide) hbase (converts_tree lower) (converts_tree upper)

/-- Limits over and under an operator become those of one n-ary node, in whichever element they are given. -/
theorem converts_limits (op : BigOperator) : (limits : Marks) →
    Converts (markedTree limitTags (operatorTree op) limits)
      [markedNode (fun sub sup => Omml.nary [op.glyph] sub sup [] (some "undOver".toList)) limits]
  | .lower e => .lower (by decide) (bigOperator?_operatorTree op) (converts_operatorTree op) (converts_tree e)
  | .upper e => .upper (by decide) (bigOperator?_operatorTree op) (converts_operatorTree op) (converts_tree e)
  | .both lower upper =>
    .lowerUpper (by decide) (bigOperator?_operatorTree op) (converts_operatorTree op) (converts_tree lower)
      (converts_tree upper)

end

/-! ## Both compilers -/

theorem formulaMarkup_latex (e : Core) :
    Latex.formulaMarkup e.latex = .ok (Omml.formula e.nodes).render := by
  have nodes : (Nucleus.root e.items).plain.markup = .ok e.nodes :=
    Latex.markup_plain (by simp) (by rw [Nucleus.markup, e.markupAll_items])
  rw [Latex.formulaMarkup, latex, Latex.parse_print_items e.canonical_items, nodes]
  rfl

theorem convertMath_math (e : Core) (attrs : List Markup.Attr) :
    MathML.convertMath (e.math attrs) = ⟨e.nodes, []⟩ :=
  e.converts_tree.singleton.nodes

theorem findMath?_math (e : Core) (attrs : List Markup.Attr) :
    MathML.findMath? (e.math attrs) = some (e.math attrs) := by
  have name : MathML.plainName "math" = "math" := by decide
  rw [math, MathML.findMath?, if_pos name]

section Compile

variable (e : Core) {host : Host} (attrs : List Markup.Attr) (display : Bool)

theorem compile_latex_native :
    Latex.compile host .native e.latex display = Latex.compileNative host e.latex e.latex display := by
  have source : Latex.repairLineBreaks e.latex.trim = e.latex :=
    Latex.repairLineBreaks_trim_print e.canonical_items
  rw [Latex.compile]
  simp only [source]
  exact if_neg (by simp)

/-- A formula that the host can follow is compiled to its nodes, without a message. -/
theorem compile_latex (followed : host.latexFailure? (Latex.tokenize e.latex) = none) :
    Latex.compile host .native e.latex display = ⟨Omml.wrap (Omml.formula e.nodes).render display, []⟩ := by
  rw [compile_latex_native, Latex.compileNative, followed]
  simp only [formulaMarkup_latex]
  rfl

/-- Where the conversion breaks off, the LaTeX source is kept. -/
theorem compile_latex_interrupted {cause : Report.Cause}
    (interrupted : host.latexFailure? (Latex.tokenize e.latex) = some cause) :
    Latex.compile host .native e.latex display =
      ⟨Omml.wrap (Omml.fallback e.latex) display, [Report.failure Latex.location cause e.latex]⟩ := by
  rw [compile_latex_native, Latex.compileNative, interrupted]
  rfl

/-- A tree that the host can follow is converted to the same nodes, without a message. -/
theorem compile_math (followed : host.mathMLFailure? (e.math attrs) = none) :
    MathML.compile host (.tree (e.math attrs)) (some display) =
      ⟨Omml.wrap (Omml.formula e.nodes).render display, []⟩ := by
  rw [MathML.compile, MathML.compileTree, findMath?_math]
  simp only [followed, convertMath_math]
  rfl

/-- Where the conversion breaks off, the text of the tree is kept. Nothing in the tree is unknown, so there is no
warning before. -/
theorem compile_math_interrupted {interruption : Interruption}
    (interrupted : host.mathMLFailure? (e.math attrs) = some interruption) :
    MathML.compile host (.tree (e.math attrs)) (some display) =
      ⟨Omml.wrap (Omml.fallback (MathML.trimmedText (e.math attrs))) display,
        [Report.failure MathML.location interruption.cause []]⟩ := by
  rw [MathML.compile, MathML.compileTree, findMath?_math]
  simp only [interrupted, convertMath_math, List.take_nil]
  rfl

end Compile

/-- An expression of both languages is pasted as the same markup from either, and without a message, on every
host that follows both conversions to their ends. Where one breaks off, the text that was given is kept. -/
theorem compile_latex_eq_compile_math (e : Core) (host : Host) (attrs : List Markup.Attr) (display : Bool) :
    (host.latexFailure? (Latex.tokenize e.latex) = none → host.mathMLFailure? (e.math attrs) = none →
      Latex.compile host .native e.latex display =
          MathML.compile host (.tree (e.math attrs)) (some display) ∧
        MathML.compile host (.tree (e.math attrs)) (some display) =
          ⟨Omml.wrap (Omml.formula e.nodes).render display, []⟩) ∧
    (∀ cause, host.latexFailure? (Latex.tokenize e.latex) = some cause →
      Latex.compile host .native e.latex display =
        ⟨Omml.wrap (Omml.fallback e.latex) display, [Report.failure Latex.location cause e.latex]⟩) ∧
    (∀ interruption, host.mathMLFailure? (e.math attrs) = some interruption →
      MathML.compile host (.tree (e.math attrs)) (some display) =
        ⟨Omml.wrap (Omml.fallback (MathML.trimmedText (e.math attrs))) display,
          [Report.failure MathML.location interruption.cause []]⟩) := by
  refine ⟨?_, fun _ => e.compile_latex_interrupted display,
    fun _ => e.compile_math_interrupted attrs display⟩
  intro followed followed'
  rw [e.compile_latex display followed, e.compile_math attrs display followed']
  exact ⟨rfl, rfl⟩

/-- An expression of every form. One degree has a closing bracket and one has none. -/
def everyForm : Core :=
  let x := atom (.letter 'x' (by decide))
  let i := atom (.letter 'i' (by decide))
  row [
    bigOperator .sum (.both (row [i, atom (.operator '=' (by decide)), atom (.number ['1'] (by decide))])
      (atom (.symbol '∞' (by decide)))),
    fraction (scripted x (.upper (atom (.number "1.5".toList (by decide))))) (row []),
    atom (.operator '≤' (by decide)),
    root (squareRoot (scripted (row [x, x]) (.both i x))) (atom (.operator ']' (by decide))),
    root (root x (row [i, x])) (root i (atom (.number ['3'] (by decide)))),
    bigOperator .product (.lower (scripted i (.lower x))),
    bigOperator .sum (.upper i)]

theorem compile_latex_eq_compile_math_everyForm :
    everyForm.latex = ("\\sum _ \x7b i = 1 \x7d ^ \x7b \\infty \x7d " ++
        "\\frac \x7b \x7b x \x7d ^ \x7b 1.5 \x7d \x7d \x7b \x7d \\leq " ++
        "\\sqrt [ \x7b ] \x7d ] \x7b \\sqrt \x7b \x7b x x \x7d _ \x7b i \x7d ^ \x7b x \x7d \x7d \x7d " ++
        "\\sqrt [ \\sqrt [ 3 ] \x7b i \x7d ] \x7b \\sqrt [ i x ] \x7b x \x7d \x7d " ++
        "\\prod _ \x7b \x7b i \x7d _ \x7b x \x7d \x7d \\sum ^ \x7b i \x7d").toList ∧
      Latex.compile .tireless .native everyForm.latex true =
        MathML.compile .tireless (.tree (everyForm.math [])) (some true) ∧
      MathML.compile .tireless (.tree (everyForm.math [])) (some true) =
        ⟨Omml.wrap (Omml.formula everyForm.nodes).render true, []⟩ := by
  refine ⟨?_, (everyForm.compile_latex_eq_compile_math .tireless [] true).1 rfl rfl⟩
  simp only [String.toList_append]
  decide +kernel

/-! ## Where the two part -/

/-- A root whose degree is a closing bracket. -/
def bracketRoot : Core := root (atom (.letter 'x' (by decide))) (atom (.operator ']' (by decide)))

/-- Square roots inside one another. -/
def radicals : Nat → Core
  | 0 => atom (.letter 'x' (by decide))
  | n + 1 => squareRoot (radicals n)

theorem textContent_radicals (n : Nat) : (radicals n).tree.textContent = ['x'] := by
  induction n with
  | zero => rfl
  | succ n ih =>
    rw [radicals, tree, Markup.Node.textContent, Markup.Node.textContentAll, ih]
    rfl

theorem backslash_mem_latex (e : Core) : '\\' ∈ (squareRoot e).latex := by
  have words : (Nucleus.root (squareRoot e).items).plain.words =
      [.command "sqrt"] :: (Expr.group e.items).words := by
    simp [items, Nucleus.plain, Expr.words, Nucleus.words, Latex.wordsAll, Latex.scriptWords]
  rw [latex, Expr.print, words]
  exact Text.mem_join_of_mem List.mem_cons_self (by decide)

/-- Without braces a closing bracket ends the degree that it stands in. And on a host that follows neither
conversion to its end, roots of roots are kept as the LaTeX source by the one and as the letter inside by the
other. -/
theorem compile_latex_ne_compile_math :
    (Latex.compile .tireless .native "\\sqrt [ ] ] \x7b x \x7d".toList false).value ≠
        (MathML.compile .tireless (.tree (bracketRoot.math [])) (some false)).value ∧
      ∀ host cause interruption, host.latexFailure? (Latex.tokenize (radicals 1000).latex) = some cause →
        host.mathMLFailure? ((radicals 1000).math []) = some interruption →
        (Latex.compile host .native (radicals 1000).latex false).value =
            Omml.wrap (Omml.fallback (radicals 1000).latex) false ∧
          (MathML.compile host (.tree ((radicals 1000).math [])) (some false)).value =
            Omml.wrap (Omml.fallback ['x']) false ∧
          (Latex.compile host .native (radicals 1000).latex false).value ≠
            (MathML.compile host (.tree ((radicals 1000).math [])) (some false)).value := by
  constructor
  · rw [(Latex.pasted_compile _ _ _ _).text, (MathML.pasted_compile _ _ _).text]
    decide +kernel
  intro host cause interruption interrupted interrupted'
  have text : MathML.trimmedText ((radicals 1000).math []) = ['x'] := by
    rw [MathML.trimmedText, math, Markup.Node.textContent, Markup.Node.textContentAll, textContent_radicals]
    decide
  rw [compile_latex_interrupted _ _ interrupted, compile_math_interrupted _ _ _ interrupted', text]
  refine ⟨rfl, rfl, ?_⟩
  intro (same : Omml.wrap (Omml.fallback (radicals 1000).latex) false = Omml.wrap (Omml.fallback ['x']) false)
  have mem := Omml.mem_wrap_fallback (backslash_mem_latex (radicals 999)) (by decide)
  change '\\' ∈ Omml.wrap (Omml.fallback (radicals 1000).latex) false at mem
  rw [same, Omml.wrap_fallback] at mem
  exact absurd mem (by decide)

end Core

end OfficeFormula
