import OfficeFormula.Proofs.Latex.Lex
import OfficeFormula.Proofs.Latex.Markup
import OfficeFormula.Proofs.MathML.Markup
import OfficeFormula.Proofs.Omml.Wrapper
import OfficeFormula.Rendered.Compile

/-!
# What is pasted

Whatever a formula is given as, what is pasted is one element: the template around the written form of
the nodes that the formula has been converted to, or of its text as one run (`Request.value_run`). The
nodes come out of the template as they were, since none of their attributes looks like a declaration. Only
a document that cannot be read gives nothing to paste.
-/

namespace OfficeFormula

open Omml (Node)

/-- What a formula has been converted to, and whether it stands on a line of its own. -/
structure Lowered where
  display : Bool
  nodes : List Node

/-- A text in place of a formula that cannot be converted. -/
def Lowered.ofText (t : Text) (display : Bool) : Lowered := ⟨display, [Omml.run t false]⟩

/-- The text is the template around the nodes, and none of them looks like a declaration. -/
structure Pasted (t : Text) (l : Lowered) : Prop where
  text : t = Omml.template l.display (Node.renderAll l.nodes)
  quiet : ∀ n ∈ l.nodes, n.Quiet

namespace Pasted

/-- Nodes that declare no namespace of their own leave the one declaration of the template. -/
theorem formula {ns : List Node} (quiet : ∀ n ∈ ns, n.Quiet) (display : Bool) :
    Pasted (Omml.wrap (Omml.formula ns).render display) ⟨display, ns⟩ :=
  ⟨Omml.wrap_formula quiet display, quiet⟩

/-- So does text, which has no markup in it. -/
theorem fallback (t : Text) (display : Bool) :
    Pasted (Omml.wrap (Omml.fallback t) display) (.ofText t display) :=
  formula (by simpa using Omml.quiet_run t false) display

end Pasted

/-! ## MathML -/

namespace MathML

/-- What a tree that was read from `source` is converted to. -/
def lowerTree (host : Host) (source : Source) (root : Markup.Node) (display : Option Bool) : Lowered :=
  match findMath? root with
  | none => .ofText (trimmedText root) (display.getD false)
  | some math =>
    let display := display.getD (asksForDisplay math)
    match host.mathMLFailure? math with
    | some _ => .ofText source.plainText display
    | none => ⟨display, (convertMath math).nodes⟩

/-- What a formula given as MathML is converted to. -/
def lower (host : Host) (source : Source) (display : Option Bool) : Lowered :=
  match source with
  | .tree root => lowerTree host source root display
  | .text t =>
    match Markup.Xml.read? t.trim with
    | some root => lowerTree host source root display
    | none => .ofText source.plainText (display.getD false)
  | .missing => .ofText [] (display.getD false)

/-- A tree is pasted whether it is converted, has no formula in it or is broken off. -/
theorem pasted_compileTree (host : Host) (source : Source) (root : Markup.Node) (display : Option Bool) :
    Pasted (compileTree host source root display).value (lowerTree host source root display) := by
  unfold compileTree lowerTree
  cases findMath? root with
  | none => exact .fallback (trimmedText root) (display.getD false)
  | some math =>
    dsimp only
    cases host.mathMLFailure? math with
    | some interruption => exact .fallback source.plainText (display.getD (asksForDisplay math))
    | none => exact .formula (quiet_convertMath math) (display.getD (asksForDisplay math))

theorem pasted_compile (host : Host) (source : Source) (display : Option Bool) :
    Pasted (compile host source display).value (lower host source display) := by
  cases source with
  | tree root => exact pasted_compileTree host (.tree root) root display
  | text t =>
    unfold compile lower
    dsimp only
    cases Markup.Xml.read? t.trim with
    | some root => exact pasted_compileTree host (.text t) root display
    | none => exact .fallback (Source.text t).plainText (display.getD false)
  | missing => exact .fallback [] (display.getD false)

end MathML

/-! ## LaTeX -/

namespace Latex

/-- What the native engine converts a formula to; `source` is the formula as it came. -/
def lowerNative (host : Host) (source formula : Text) (display : Bool) : Lowered :=
  match host.latexFailure? (tokenize formula) with
  | some _ => .ofText source display
  | none =>
    match (parse formula).markup with
    | .ok nodes => ⟨display, nodes⟩
    | .error _ => .ofText source display

/-- What a formula given as LaTeX is converted to. -/
def lower (host : Host) (engine : Engine) (source : Text) (display : Bool) : Lowered :=
  let formula := repairLineBreaks source.trim
  if engine = .mathml ∧ formula ≠ [] then
    match host.converter formula display with
    | .ok mathml => MathML.lower host (.text mathml) (some display)
    | .error _ => lowerNative host source formula display
  else lowerNative host source formula display

theorem lowerNative_nil {host : Host} (followed : host.latexFailure? [] = none) (display : Bool) :
    lowerNative host [] [] display = ⟨display, []⟩ := by
  have nodes : (parse []).markup = .ok [] := by
    rw [parse, tokenize_nil, parseTokens, formulaItems_nil]
    rfl
  simp [lowerNative, tokenize_nil, followed, nodes]

theorem pasted_compileNative (host : Host) (source formula : Text) (display : Bool) :
    Pasted (compileNative host source formula display).value (lowerNative host source formula display) := by
  unfold compileNative lowerNative formulaMarkup
  cases host.latexFailure? (tokenize formula) with
  | some cause => exact .fallback source display
  | none =>
    dsimp only
    cases lowered : (parse formula).markup with
    | ok nodes => exact .formula (quiet_markup_parse lowered) display
    | error e => exact .fallback source display

theorem pasted_compile (host : Host) (engine : Engine) (source : Text) (display : Bool) :
    Pasted (compile host engine source display).value (lower host engine source display) := by
  unfold compile lower
  dsimp only
  split
  · cases host.converter (repairLineBreaks source.trim) display with
    | ok mathml => exact MathML.pasted_compile host (.text mathml) (some display)
    | error reason => exact pasted_compileNative host source (repairLineBreaks source.trim) display
  · exact pasted_compileNative host source (repairLineBreaks source.trim) display

end Latex

/-! ## Rendered formulas -/

namespace Rendered

/-- What a rendered formula is converted to. -/
def lower (settings : Settings) (markup : Text) : Lowered :=
  let (latex, display) := latexSource? markup
  match mathML? markup with
  | some math => MathML.lower settings.host (.tree math) (if display then some true else none)
  | none =>
    match latex.or (plainText? markup) with
    | some source => Latex.lower settings.host settings.engine source display
    | none => .ofText [] display

/-- A rendered formula is pasted by the compiler of whichever source it has. -/
theorem pasted_compileForClipboard (settings : Settings) (markup : Text) :
    Pasted (compileForClipboard settings markup).value (lower settings markup) := by
  unfold compileForClipboard lower
  obtain ⟨latex, display⟩ := latexSource? markup
  cases mathML? markup with
  | some math => exact MathML.pasted_compile settings.host (.tree math) (if display then some true else none)
  | none =>
    dsimp only
    cases latex.or (plainText? markup) with
    | some source => exact Latex.pasted_compile settings.host settings.engine source display
    | none => exact .fallback [] display

end Rendered

/-! ## All requests -/

/-- A formula that is to be pasted. -/
inductive Request where
  | latex (host : Host) (engine : Latex.Engine) (source : Text) (display : Bool)
  | mathML (host : Host) (source : MathML.Source) (display : Option Bool)
  /-- A formula on a web page, under the settings for the clipboard. -/
  | rendered (settings : Settings) (markup : Text)

namespace Request

def run : Request → Attempt Text
  | latex host engine source display => Latex.compile host engine source display
  | mathML host source display => MathML.compile host source display
  | rendered settings markup => Rendered.compile settings.clipboard markup

def lower : Request → Lowered
  | latex host engine source display => Latex.lower host engine source display
  | mathML host source display => MathML.lower host source display
  | rendered settings markup => Rendered.lower settings.clipboard markup

/-- Why the formula cannot be read, if it cannot. -/
def unreadable? : Request → Option Markup.Html.Unreadable
  | latex _ _ _ _ | mathML _ _ _ => none
  | rendered _ markup =>
    match Markup.Html.readFragment markup with
    | .ok _ => none
    | .error reason => some reason

/-- Every request is answered, but for one that cannot be read. -/
theorem answered (request : Request) :
    match request.unreadable? with
    | some reason => request.run.run.value = .error reason
    | none => ∃ t, request.run.run.value = .ok t ∧ Pasted t request.lower := by
  cases request with
  | latex host engine source display => exact ⟨_, rfl, Latex.pasted_compile host engine source display⟩
  | mathML host source display => exact ⟨_, rfl, MathML.pasted_compile host source display⟩
  | rendered settings markup =>
    rw [unreadable?, run, Rendered.compile]
    cases Markup.Html.readFragment markup with
    | error reason => rfl
    | ok ns => exact ⟨_, rfl, Rendered.pasted_compileForClipboard settings.clipboard markup⟩

/-- What is pasted is the template around the written nodes, unchanged, and the namespace is declared in
it once. Nothing is pasted only where the formula stands in a document that cannot be read. -/
theorem value_run (request : Request) :
    (∃ reason, request.unreadable? = some reason ∧ request.run.run.value = .error reason) ∨
      ∃ t, request.unreadable? = none ∧ request.run.run.value = .ok t ∧
        t = Omml.template request.lower.display (Node.renderAll request.lower.nodes) ∧
        Text.occurrences "xmlns:m=\"".toList t = 1 := by
  have answered := request.answered
  cases unreadable : request.unreadable? with
  | some reason =>
    rw [unreadable] at answered
    exact .inl ⟨reason, rfl, answered⟩
  | none =>
    rw [unreadable] at answered
    obtain ⟨t, value, pasted⟩ := answered
    refine .inr ⟨t, rfl, value, pasted.text, ?_⟩
    rw [pasted.text]
    exact Omml.occurrences_template pasted.quiet request.lower.display

/-- A displayed formula without content closes its inner element in itself. -/
theorem value_run_displayed_empty :
    let request : Request := latex .tireless .native [] true
    let opening := "<m:oMathPara xmlns:m=\"".toList ++ Omml.namespaceName ++ "\">".toList
    Node.renderAll request.lower.nodes = [] ∧ ∃ t, request.run.run.value = .ok t ∧
      t = opening ++ "<m:oMath/></m:oMathPara>".toList ∧
      t ≠ Omml.template false (Node.renderAll request.lower.nodes) ∧
      t ≠ opening ++ "<m:oMath>".toList ++ Node.renderAll request.lower.nodes ++
        "</m:oMath></m:oMathPara>".toList := by
  intro request opening
  have empty : request.lower = ⟨true, []⟩ := by
    change Latex.lowerNative .tireless [] (Latex.repairLineBreaks []) true = _
    rw [Latex.repairLineBreaks, Latex.repairAfter]
    exact Latex.lowerNative_nil rfl true
  obtain ⟨t, value, pasted⟩ := request.answered
  rw [pasted.text] at value
  rw [empty] at value ⊢
  refine ⟨rfl, _, value, ?_, ?_, ?_⟩
  · decide
  · decide
  · decide

end Request

end OfficeFormula
