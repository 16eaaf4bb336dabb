import Mathlib.Data.List.Perm.Basic
import OfficeFormula.MathML.Markup
import OfficeFormula.Proofs.Text.Words

/-!
# No symbol of MathML is lost

The symbols of a formula are the texts of its tokens. In markup they are the texts of runs and, where a
token is the glyph of a big operator or of an accent, the value of a property. In a tree whose elements have
the operands they need, and whose text stands in tokens (`isRegular`), every symbol is converted exactly once
(`symbols_convertMath`), though not always in the same order.

A converted operand is dropped in two places, and only the character of its text is kept. There the operand
has a single symbol, which is that character (`tokenTexts_of_trimmedText`): blanks apart, the text of a tree
is that of its symbols (`visible_textContent`).
-/

namespace OfficeFormula

namespace Omml

namespace Node

/-- What an element prints by itself: the text of a run, or the glyph that a property names. -/
def ownSymbols (tag : String) (attrs : List (String × Text)) (children : List Node) : List Text :=
  if tag = "m:t" then [textContentAll children].filter (· ≠ [])
  else if tag = "m:chr" then (attrs.lookup "m:val").toList
  else []

mutual

/-- The texts of the runs in a tree, those that are not empty, and its glyphs. -/
def symbols : Node → List Text
  | element tag attrs children => ownSymbols tag attrs children ++ symbolsAll children
  | text _ => []

def symbolsAll : List Node → List Text
  | [] => []
  | n :: ns => n.symbols ++ symbolsAll ns

end

@[simp] theorem symbolsAll_nil : symbolsAll [] = [] := by rw [symbolsAll]

@[simp] theorem symbolsAll_cons (n : Node) (ns : List Node) :
    symbolsAll (n :: ns) = n.symbols ++ symbolsAll ns := by
  rw [symbolsAll]

@[simp] theorem symbolsAll_append (ns ms : List Node) :
    symbolsAll (ns ++ ms) = symbolsAll ns ++ symbolsAll ms := by
  induction ns with
  | nil => rfl
  | cons n ns ih => rw [List.cons_append, symbolsAll_cons, ih, symbolsAll_cons, List.append_assoc]

theorem symbolsAll_map {α : Type} (f : α → Node) (as : List α) :
    symbolsAll (as.map f) = as.flatMap fun a => (f a).symbols := by
  induction as with
  | nil => rfl
  | cons a as ih => rw [List.map_cons, symbolsAll_cons, ih, List.flatMap_cons]

end Node

open Node (symbolsAll)

/-! ## The symbols of each structure -/

/-- An element with this tag prints nothing by itself. -/
def isSilent (tag : String) : Bool := "m:" ++ tag ≠ "m:t" && "m:" ++ tag ≠ "m:chr"

theorem ownSymbols_of_isSilent {tag : String} (silent : isSilent tag = true) (attrs : List (String × Text))
    (ns : List Node) : Node.ownSymbols ("m:" ++ tag) attrs ns = [] := by
  simp only [isSilent, Bool.and_eq_true, decide_eq_true_eq] at silent
  rw [Node.ownSymbols, if_neg silent.1, if_neg silent.2]

@[simp] theorem symbols_element {tag : String} (silent : isSilent tag = true) (ns : List Node) :
    (element tag ns).symbols = symbolsAll ns := by
  rw [element, Node.symbols, ownSymbols_of_isSilent silent, List.nil_append]

@[simp] theorem symbols_property {tag : String} (silent : isSilent tag = true) (value : Text) :
    (property tag value).symbols = [] := by
  rw [property, Node.symbols, ownSymbols_of_isSilent silent]
  rfl

@[simp] theorem symbols_glyph (value : Text) : (property "chr" value).symbols = [value] := by
  have tag : "m:" ++ "chr" = "m:chr" := by decide
  rw [property, Node.symbols, Node.ownSymbols, tag, if_neg (by decide), if_pos rfl]
  rfl

/-- A run is one symbol, and an empty run none. -/
theorem symbols_run (t : Text) : (run t false).symbols = [t].filter (· ≠ []) := by
  have text : (runText t).symbols = [t].filter (· ≠ []) := by
    by_cases empty : t = []
    · subst empty
      rfl
    · rw [runText, Node.symbols, Node.ownSymbols, if_pos rfl, if_neg empty]
      simp [Node.textContentAll, Node.textContent, Node.symbols]
  rw [run, Node.symbols, Node.ownSymbols, if_neg (by decide), if_neg (by decide)]
  simp [text]

theorem symbols_formula (ns : List Node) : (formula ns).symbols = symbolsAll ns :=
  symbols_element (by decide) ns

section Structures

variable (base sub sup limit : List Node)

theorem symbols_fraction (num den : List Node) :
    (fraction num den).symbols = symbolsAll num ++ symbolsAll den := by
  simp (disch := decide) [fraction]

theorem symbols_squareRoot : (radical base [] true).symbols = symbolsAll base := by
  simp (disch := decide) [radical]

/-- The degree of a root comes before its base. -/
theorem symbols_root (degree : List Node) :
    (radical base degree false).symbols = symbolsAll degree ++ symbolsAll base := by
  simp (disch := decide) [radical]

theorem symbols_subscript : (scripts base (some sub) none).symbols = symbolsAll base ++ symbolsAll sub := by
  simp (disch := decide) [scripts]

theorem symbols_superscript : (scripts base none (some sup)).symbols = symbolsAll base ++ symbolsAll sup := by
  simp (disch := decide) [scripts]

theorem symbols_subSuperscript :
    (scripts base (some sub) (some sup)).symbols = symbolsAll base ++ (symbolsAll sub ++ symbolsAll sup) := by
  simp (disch := decide) [scripts]

theorem symbols_lowerLimit : (lowerLimit base limit).symbols = symbolsAll base ++ symbolsAll limit := by
  simp (disch := decide) [lowerLimit]

theorem symbols_upperLimit : (upperLimit base limit).symbols = symbolsAll base ++ symbolsAll limit := by
  simp (disch := decide) [upperLimit]

/-- An accent is written before its base. -/
theorem symbols_accent (glyph : Text) : (accent base glyph).symbols = glyph :: symbolsAll base := by
  simp (disch := decide) [accent]

/-- Of the properties of a big operator only its glyph is a symbol. -/
theorem symbols_naryProperties (glyph : Text) (sub sup : Option (List Node)) (limits : Option Text) :
    (naryProperties glyph sub sup limits).symbols = [glyph] := by
  have hidden (tag : String) (silent : isSilent tag = true) (script : Option (List Node)) :
      symbolsAll (if script.isNone then [property tag ['1']] else []) = [] := by
    split <;> simp [silent]
  unfold naryProperties
  rw [symbols_element (by decide)]
  simp only [Node.symbolsAll_append, hidden "subHide" (by decide), hidden "supHide" (by decide), List.append_nil]
  cases limits with
  | none => simp
  | some place =>
    dsimp only
    split <;> simp (disch := decide)

/-- An operator is written before its limits. -/
theorem symbols_nary (glyph : Text) (sub sup : Option (List Node)) (limits : Option Text) :
    (nary glyph sub sup [] limits).symbols =
      glyph :: (symbolsAll (sub.getD []) ++ symbolsAll (sup.getD [])) := by
  rw [nary, symbols_element (by decide)]
  simp (disch := decide) [symbols_naryProperties]

/-- The symbols of a matrix are those of its cells, row by row. -/
theorem symbols_matrix (rows : List (List (List Node))) :
    (matrix rows).symbols = rows.flatten.flatMap symbolsAll := by
  have row (cells : List (List Node)) :
      (element "mr" (cells.map (element "e"))).symbols = cells.flatMap symbolsAll := by
    rw [symbols_element (by decide), Node.symbolsAll_map]
    simp (disch := decide)
  rw [matrix, symbols_element (by decide), Node.symbolsAll_map]
  simp only [row]
  rw [List.flatten_eq_flatMap, List.flatMap_assoc]
  rfl

end Structures

end Omml

namespace MathML

open Markup (Node)
open Omml.Node (symbolsAll)
open Text (visible)

/-! ## The symbols of a tree -/

mutual

/-- The texts of the tokens in a tree, trimmed, those that are not empty. -/
def tokenTexts : Node → List Text
  | .element name _ children =>
    if kindOf (plainName name) = .token then [(Node.textContentAll children).trim].filter (· ≠ [])
    else tokenTextsAll children
  | .text _ | .comment _ => []

def tokenTextsAll : List Node → List Text
  | [] => []
  | n :: ns => tokenTexts n ++ tokenTextsAll ns

end

/-- A token is one text, without the blanks around it. -/
theorem tokenTexts_token {name : String} (kind : kindOf (plainName name) = .token) (attrs : List Markup.Attr)
    (children : List Node) :
    tokenTexts (.element name attrs children) = [(Node.textContentAll children).trim].filter (· ≠ []) := by
  rw [tokenTexts, if_pos kind]

theorem tokenTexts_element {name : String} (kind : kindOf (plainName name) ≠ .token)
    (attrs : List Markup.Attr) (children : List Node) :
    tokenTexts (.element name attrs children) = tokenTextsAll children := by
  rw [tokenTexts, if_neg kind]

theorem elements_cons (name : String) (attrs : List Markup.Attr) (children ns : List Node) :
    elements (.element name attrs children :: ns) = .element name attrs children :: elements ns :=
  rfl

/-- Only elements have symbols. -/
theorem tokenTextsAll_eq_flatMap (ns : List Node) : tokenTextsAll ns = (elements ns).flatMap tokenTexts := by
  induction ns with
  | nil => rw [tokenTextsAll]; rfl
  | cons n ns ih =>
    rw [tokenTextsAll, ih]
    cases n with
    | element name attrs children => rfl
    | text t => rw [tokenTexts]; rfl
    | comment t => rw [tokenTexts]; rfl

/-! ## Regular trees -/

/-- A cell of a table. -/
def isCell : Node → Bool
  | .element name _ _ => plainName name = "mtd"
  | .text _ | .comment _ => false

/-- A row of a table that has no label, and holds cells only. -/
def isRow : Node → Bool
  | .element name _ children => plainName name = "mtr" && (elements children).all isCell
  | .text _ | .comment _ => false

/-- The content of an element of some kind, other than a token, has the elements that belong there: all its
operands and no more, or the rows of a table. A kind for which something else than its content is printed
has no such content. -/
def hasOperands (kind : Kind) (children : List Node) : Bool :=
  match kind with
  | .row | .squareRoot | .unknown => true
  | .superscript | .subscript | .fraction | .root | .lower | .upper => (elements children).length = 2
  | .subSuperscript | .lowerUpper => (elements children).length = 3
  | .table => (elements children).all isRow
  | .token | .ignored | .fenced | .space | .semantics => false

mutual

/-- Every element of the tree has the operands that it needs, and text stands in tokens only. -/
def isRegular : Node → Bool
  | .element name _ children =>
    if kindOf (plainName name) = .token then children.all (!·.isElement)
    else hasOperands (kindOf (plainName name)) children && allRegular children
  | .text t => t.all isBlank
  | .comment _ => true

def allRegular : List Node → Bool
  | [] => true
  | n :: ns => isRegular n && allRegular ns

end

theorem allRegular_iff {ns : List Node} : allRegular ns = true ↔ ∀ n ∈ ns, isRegular n = true := by
  induction ns with
  | nil => simp [allRegular]
  | cons n ns ih => rw [allRegular, Bool.and_eq_true, ih, List.forall_mem_cons]

/-- An element is regular if it has the operands its kind takes and they are regular. -/
theorem isRegular_element {name : String} (kind : kindOf (plainName name) ≠ .token) {attrs : List Markup.Attr}
    {children : List Node} : isRegular (.element name attrs children) = true ↔
      hasOperands (kindOf (plainName name)) children = true ∧ ∀ n ∈ children, isRegular n = true := by
  rw [isRegular, if_neg kind, Bool.and_eq_true, allRegular_iff]

/-- What holds of tokens and passes from the content of an element to the element holds of regular trees. -/
@[elab_as_elim]
theorem isRegular_induction {P : Node → Prop} (text : ∀ t : Text, t.all isBlank = true → P (.text t))
    (comment : ∀ t, P (.comment t))
    (token : ∀ name attrs children, kindOf (plainName name) = .token → P (.element name attrs children))
    (element : ∀ name attrs children, kindOf (plainName name) ≠ .token →
      hasOperands (kindOf (plainName name)) children = true → (∀ n ∈ children, isRegular n = true) →
      (∀ n ∈ children, P n) → P (.element name attrs children)) :
    (n : Node) → isRegular n = true → P n
  | .text t, regular => text t (by rwa [isRegular] at regular)
  | .comment t, _ => comment t
  | .element name attrs children, regular => by
    by_cases kind : kindOf (plainName name) = .token
    · exact token name attrs children kind
    · obtain ⟨operands, inside⟩ := (isRegular_element kind).1 regular
      refine element name attrs children kind operands inside fun n hn => ?_
      exact isRegular_induction text comment token element n (inside n hn)
termination_by n => sizeOf n
decreasing_by
  have smaller := List.sizeOf_lt_of_mem hn
  simp only [Node.element.sizeOf_spec]
  omega

/-! ## The only symbol of an operand -/

theorem visible_flatten_tokenTexts_token {name : String} (kind : kindOf (plainName name) = .token)
    (attrs : List Markup.Attr) (children : List Node) :
    visible (tokenTexts (.element name attrs children)).flatten = visible (Node.textContentAll children) := by
  rw [tokenTexts_token kind, ← Text.visible_trim (Node.textContentAll children)]
  by_cases blank : (Node.textContentAll children).trim = []
  · simp [blank]
  · simp [blank]

/-- What is true of each node is true of the nodes side by side. -/
theorem visible_textContentAll {ns : List Node}
    (each : ∀ n ∈ ns, visible n.textContent = visible (tokenTexts n).flatten) :
    visible (Node.textContentAll ns) = visible (tokenTextsAll ns).flatten := by
  induction ns with
  | nil => rw [Node.textContentAll, tokenTextsAll]; rfl
  | cons n ns ih =>
    rw [List.forall_mem_cons] at each
    rw [Node.textContentAll, tokenTextsAll, List.flatten_append, Text.visible_append, Text.visible_append,
      each.1, ih each.2]

/-- Blanks apart, the text of a regular tree is that of its symbols. -/
theorem visible_textContent (n : Node) (regular : isRegular n = true) :
    visible n.textContent = visible (tokenTexts n).flatten := by
  refine isRegular_induction ?text ?comment ?token ?element n regular
  case text =>
    intro t blank
    rw [Node.textContent, tokenTexts, Text.visible_of_isBlank blank]
    rfl
  case comment =>
    intro t
    rw [Node.textContent, tokenTexts]
    rfl
  case token =>
    intro name attrs children kind
    rw [Node.textContent, visible_flatten_tokenTexts_token kind]
  case element =>
    intro name attrs children kind _ _ ih
    rw [Node.textContent, tokenTexts_element kind, visible_textContentAll ih]

/-- A symbol has no blanks around it, and is not empty. -/
theorem trim_of_mem_tokenTexts (n : Node) (regular : isRegular n = true) :
    ∀ t ∈ tokenTexts n, t.trim = t ∧ t ≠ [] := by
  refine isRegular_induction ?text ?comment ?token ?element n regular
  case text =>
    intro t _
    simp [tokenTexts]
  case comment =>
    intro t
    simp [tokenTexts]
  case token =>
    intro name attrs children kind t ht
    rw [tokenTexts_token kind, List.mem_filter, List.mem_singleton, decide_eq_true_eq] at ht
    obtain ⟨rfl, ne⟩ := ht
    exact ⟨Text.trim_trim _, ne⟩
  case element =>
    intro name attrs children kind _ _ ih t ht
    rw [tokenTexts_element kind, tokenTextsAll_eq_flatMap, List.mem_flatMap] at ht
    obtain ⟨n, hn, ht⟩ := ht
    exact ih n (List.mem_of_mem_filter hn) t ht

/-- If the text of a regular tree is a single character, then this is its only symbol. -/
theorem tokenTexts_of_trimmedText {n : Node} (regular : isRegular n = true) {c : Char}
    (one : trimmedText n = [c]) : tokenTexts n = [[c]] := by
  have shown : visible (tokenTexts n).flatten = [c] := by
    rw [← visible_textContent n regular]
    exact Text.trim_eq_singleton_iff.1 one
  have each := trim_of_mem_tokenTexts n regular
  have visible_ne {t : Text} (ht : t ∈ tokenTexts n) : visible t ≠ [] :=
    Text.visible_ne_nil (by rw [(each t ht).1]; exact (each t ht).2)
  cases split : tokenTexts n with
  | nil => simp [split, visible] at shown
  | cons t ts =>
    rw [split, List.flatten_cons, Text.visible_append] at shown
    have first := visible_ne (t := t) (by simp [split])
    have alone : ts = [] := by
      cases ts with
      | nil => rfl
      | cons u us =>
        -- Two symbols would have two characters.
        have second := visible_ne (t := u) (by simp [split])
        have count := congrArg List.length shown
        have some := List.length_pos_iff.2 first
        have more := List.length_pos_iff.2 second
        rw [List.flatten_cons, Text.visible_append] at count
        simp only [List.length_append, List.length_singleton] at count
        omega
    subst alone
    have whole : t.trim = [c] := Text.trim_eq_singleton_iff.2 (by simpa [visible] using shown)
    rw [← whole, (each t (by simp [split])).1]

/-! ## Operands -/

/-- Operands are converted one by one. -/
theorem convertElements_eq_map (ns : List Node) : convertElements ns = (elements ns).map convert := by
  induction ns with
  | nil => rw [convertElements]; rfl
  | cons n ns ih =>
    cases n with
    | element name attrs children => rw [convertElements, ih]; rfl
    | text t =>
      simp only [convertElements]
      exact ih
    | comment t =>
      simp only [convertElements]
      exact ih

theorem baseOperator?_of_elements {ns more : List Node} {a : Node} (operands : elements ns = a :: more) :
    baseOperator? ns = bigOperator? a := by
  rw [baseOperator?, operands]
  rfl

/-- The symbol of an operator is all its text. -/
theorem trimmedText_of_bigOperator? {n : Node} {glyph : Char} (operator : bigOperator? n = some glyph) :
    trimmedText n = [glyph] := by
  unfold bigOperator? at operator
  split at operator
  · next c single =>
    split at operator
    · rw [single, Option.some.inj operator]
    · cases operator
  · cases operator

theorem trimmedText_of_accentGlyph? {ns : List Node} {a b : Node} (operands : elements ns = [a, b])
    {glyph : Char} (accent : accentGlyph? ns = some glyph) : trimmedText b = [glyph] := by
  rw [accentGlyph?, operands] at accent
  dsimp only at accent
  split at accent
  · next c single => rw [single, Option.some.inj accent]
  · cases accent

/-- The symbols of a node once it has been converted. -/
def convertedSymbols (n : Node) : List Text := symbolsAll (convert n).nodes

/-- The symbols of content are those of its elements, since the text between them is blank. -/
theorem symbolsAll_convertContent {ns : List Node} (regular : ∀ n ∈ ns, isRegular n = true) :
    symbolsAll (convertContent ns).nodes = (elements ns).flatMap convertedSymbols := by
  induction ns with
  | nil => rw [convertContent]; rfl
  | cons n ns ih =>
    rw [List.forall_mem_cons] at regular
    have split : (convertContent (n :: ns)).nodes = (convert n).nodes ++ (convertContent ns).nodes := by
      rw [convertContent]
      rfl
    rw [split, Omml.Node.symbolsAll_append, ih regular.2]
    cases n with
    | element name attrs children => rfl
    | text t =>
      have blank : t.all isBlank = true := by simpa [isRegular] using regular.1
      rw [convert, textRun, if_pos (Text.trim_of_isBlank blank)]
      rfl
    | comment t =>
      rw [convert]
      rfl

theorem symbolsAll_node (parts : List Converted) (n : Omml.Node) :
    symbolsAll (Converted.node parts n).nodes = n.symbols := by
  simp [Converted.node]

/-- The node keeps its symbols when it is converted. -/
def KeepsSymbols (n : Node) : Prop := (convertedSymbols n).Perm (tokenTexts n)

section Limits

variable {a b c : Node} (base : isRegular a = true) (ha : KeepsSymbols a) (hb : KeepsSymbols b)
include base ha hb

/-- A lower limit changes the order of the symbols only. -/
theorem perm_lowerMarkup :
    (symbolsAll (lowerMarkup (bigOperator? a) (convert a) (convert b)).nodes).Perm
      (tokenTexts a ++ tokenTexts b) := by
  cases operator : bigOperator? a with
  | none =>
    rw [lowerMarkup, symbolsAll_node, Omml.symbols_lowerLimit]
    exact ha.append hb
  | some glyph =>
    rw [tokenTexts_of_trimmedText base (trimmedText_of_bigOperator? operator)]
    rw [lowerMarkup, bigOperator, symbolsAll_node, Omml.symbols_nary, Option.map_none, Option.getD_none,
      Omml.Node.symbolsAll_nil, List.append_nil]
    exact hb.cons [glyph]

/-- What stands above a base is kept by an accent too, if it is a single character. -/
theorem perm_upperMarkup (above : isRegular b = true) {accent : Option Char}
    (single : ∀ glyph ∈ accent, trimmedText b = [glyph]) :
    (symbolsAll (upperMarkup (bigOperator? a) accent (convert a) (convert b)).nodes).Perm
      (tokenTexts a ++ tokenTexts b) := by
  cases operator : bigOperator? a with
  | none =>
    cases accent with
    | none =>
      rw [upperMarkup, symbolsAll_node, Omml.symbols_upperLimit]
      exact ha.append hb
    | some glyph =>
      rw [tokenTexts_of_trimmedText above (single glyph rfl)]
      rw [upperMarkup, symbolsAll_node, Omml.symbols_accent]
      exact (ha.cons [glyph]).trans (List.perm_append_singleton [glyph] (tokenTexts a)).symm
  | some glyph =>
    rw [tokenTexts_of_trimmedText base (trimmedText_of_bigOperator? operator)]
    rw [upperMarkup, bigOperator, symbolsAll_node, Omml.symbols_nary, Option.map_none, Option.getD_none,
      Omml.Node.symbolsAll_nil, List.nil_append]
    exact hb.cons [glyph]

/-- Without a big operator what stands above comes before what stands below. -/
theorem perm_lowerUpperMarkup (hc : KeepsSymbols c) :
    (symbolsAll (lowerUpperMarkup (bigOperator? a) (convert a) (convert b) (convert c)).nodes).Perm
      (tokenTexts a ++ (tokenTexts b ++ tokenTexts c)) := by
  cases operator : bigOperator? a with
  | none =>
    rw [lowerUpperMarkup, symbolsAll_node, Omml.symbols_lowerLimit, Omml.Node.symbolsAll_cons,
      Omml.symbols_upperLimit, Omml.Node.symbolsAll_nil, List.append_nil, List.append_assoc]
    exact ha.append ((hc.append hb).trans List.perm_append_comm)
  | some glyph =>
    rw [tokenTexts_of_trimmedText base (trimmedText_of_bigOperator? operator)]
    rw [lowerUpperMarkup, bigOperator, symbolsAll_node, Omml.symbols_nary]
    exact (hb.append hc).cons [glyph]

end Limits

/-! ## Tables -/

theorem convertedSymbols_unknown {name : String} (kind : kindOf (plainName name) = .unknown)
    (attrs : List Markup.Attr) (children : List Node) :
    convertedSymbols (.element name attrs children) = symbolsAll (convertContent children).nodes := by
  rw [convertedSymbols, convert]
  simp only [kind]
  rfl

theorem symbols_convertCells {ns : List Node} (cells : ∀ n ∈ elements ns, isCell n = true) :
    (convertCells ns).flatMap (fun cell => symbolsAll cell.nodes) = (elements ns).flatMap convertedSymbols := by
  induction ns with
  | nil => rw [convertCells]; rfl
  | cons n ns ih =>
    cases n with
    | element name attrs children =>
      rw [elements_cons, List.forall_mem_cons] at cells
      have named : plainName name = "mtd" := by simpa [isCell] using cells.1
      have kind : kindOf (plainName name) = .unknown := by rw [named]; decide
      rw [convertCells, if_pos named, List.flatMap_cons, ih cells.2, ← convertedSymbols_unknown kind attrs]
      rfl
    | text t =>
      simp only [convertCells]
      exact ih cells
    | comment t =>
      simp only [convertCells]
      exact ih cells

/-- The cells of regular rows keep their symbols. -/
theorem symbols_convertRows {ns : List Node} (regular : ∀ n ∈ ns, isRegular n = true)
    (rows : ∀ n ∈ elements ns, isRow n = true) :
    (convertRows ns).flatten.flatMap (fun cell => symbolsAll cell.nodes) =
      (elements ns).flatMap convertedSymbols := by
  induction ns with
  | nil => rw [convertRows]; rfl
  | cons n ns ih =>
    rw [List.forall_mem_cons] at regular
    cases n with
    | element name attrs children =>
      rw [elements_cons, List.forall_mem_cons] at rows
      have row := rows.1
      simp only [isRow, Bool.and_eq_true, decide_eq_true_eq, List.all_eq_true] at row
      obtain ⟨named, cells⟩ := row
      have kind : kindOf (plainName name) = .unknown := by rw [named]; decide
      have inside := ((isRegular_element (by simp [kind])).1 regular.1).2
      rw [convertRows, if_pos named, List.flatten_cons, List.flatMap_append, ih regular.2 rows.2,
        symbols_convertCells cells, ← symbolsAll_convertContent inside, ← convertedSymbols_unknown kind attrs]
      rfl
    | text t =>
      simp only [convertRows]
      exact ih regular.2 rows
    | comment t =>
      simp only [convertRows]
      exact ih regular.2 rows

/-! ## All symbols -/

section Operands

variable {children : List Node} (inside : ∀ n ∈ children, isRegular n = true)
  (ih : ∀ n ∈ children, KeepsSymbols n)
include inside ih

theorem perm_content : (symbolsAll (convertContent children).nodes).Perm (tokenTextsAll children) := by
  rw [symbolsAll_convertContent inside, tokenTextsAll_eq_flatMap]
  exact List.Perm.flatMap_left _ fun n hn => ih n (List.mem_of_mem_filter hn)

/-- An element with two operands keeps their symbols if what is made of the operands does. -/
theorem perm_twoOperands (two : (elements children).length = 2) {f : Converted → Converted → Converted}
    (hf : ∀ a b, elements children = [a, b] → isRegular a = true → isRegular b = true → KeepsSymbols a →
      KeepsSymbols b → (symbolsAll (f (convert a) (convert b)).nodes).Perm (tokenTexts a ++ tokenTexts b)) :
    (symbolsAll (match convertElements children with
      | a :: b :: _ => f a b
      | _ => missingOperand).nodes).Perm (tokenTextsAll children) := by
  obtain ⟨a, b, operands⟩ := List.length_eq_two.1 two
  have mem {n : Node} (hn : n ∈ [a, b]) : n ∈ children := by
    rw [← operands] at hn
    exact List.mem_of_mem_filter hn
  have ha : a ∈ children := mem (by simp)
  have hb : b ∈ children := mem (by simp)
  have texts : tokenTextsAll children = tokenTexts a ++ tokenTexts b := by
    rw [tokenTextsAll_eq_flatMap, operands]
    simp
  rw [convertElements_eq_map, operands, texts]
  exact hf a b operands (inside a ha) (inside b hb) (ih a ha) (ih b hb)

/-- An element with three operands keeps their symbols if what is made of the operands does. -/
theorem perm_threeOperands (three : (elements children).length = 3)
    {f : Converted → Converted → Converted → Converted}
    (hf : ∀ a b c, elements children = [a, b, c] → isRegular a = true → KeepsSymbols a → KeepsSymbols b →
      KeepsSymbols c → (symbolsAll (f (convert a) (convert b) (convert c)).nodes).Perm
        (tokenTexts a ++ (tokenTexts b ++ tokenTexts c))) :
    (symbolsAll (match convertElements children with
      | a :: b :: c :: _ => f a b c
      | _ => missingOperand).nodes).Perm (tokenTextsAll children) := by
  obtain ⟨a, b, c, operands⟩ := List.length_eq_three.1 three
  have mem {n : Node} (hn : n ∈ [a, b, c]) : n ∈ children := by
    rw [← operands] at hn
    exact List.mem_of_mem_filter hn
  have ha : a ∈ children := mem (by simp)
  have hb : b ∈ children := mem (by simp)
  have hc : c ∈ children := mem (by simp)
  have texts : tokenTextsAll children = tokenTexts a ++ (tokenTexts b ++ tokenTexts c) := by
    rw [tokenTextsAll_eq_flatMap, operands]
    simp
  rw [convertElements_eq_map, operands, texts]
  exact hf a b c operands (inside a ha) (ih a ha) (ih b hb) (ih c hc)

/-- So a table keeps those of its rows. -/
theorem perm_table (rows : ∀ n ∈ elements children, isRow n = true) :
    (symbolsAll (tableMarkup (convertRows children)).nodes).Perm (tokenTextsAll children) := by
  have cells : ((convertRows children).map (·.map (·.nodes))).flatten =
      (convertRows children).flatten.map (·.nodes) := by
    rw [List.map_flatten]
  rw [tableMarkup, symbolsAll_node, Omml.symbols_matrix, cells, List.flatMap_map,
    symbols_convertRows inside rows, tokenTextsAll_eq_flatMap]
  exact List.Perm.flatMap_left _ fun n hn => ih n (List.mem_of_mem_filter hn)

end Operands

theorem keepsSymbols_token {name : String} (kind : kindOf (plainName name) = .token)
    (attrs : List Markup.Attr) (children : List Node) : KeepsSymbols (.element name attrs children) := by
  have same : convertedSymbols (.element name attrs children) = tokenTexts (.element name attrs children) := by
    rw [tokenTexts_token kind, ← Omml.symbols_run, convertedSymbols, convert]
    simp [kind]
  rw [KeepsSymbols, same]

/-- The symbols of a regular tree are those of its markup. -/
theorem keepsSymbols (n : Node) (regular : isRegular n = true) : KeepsSymbols n := by
  refine isRegular_induction ?text ?comment ?token ?element n regular
  case text =>
    intro t blank
    rw [KeepsSymbols, convertedSymbols, convert, textRun, if_pos (Text.trim_of_isBlank blank), tokenTexts]
    exact .nil
  case comment =>
    intro t
    rw [KeepsSymbols, convertedSymbols, convert, tokenTexts]
    exact .nil
  case token =>
    intro name attrs children kind
    exact keepsSymbols_token kind attrs children
  case element =>
    intro name attrs children other operands inside ih
    have content := perm_content inside ih
    rw [KeepsSymbols, tokenTexts_element other, convertedSymbols, convert]
    generalize kindOf (plainName name) = kind at operands ⊢
    cases kind with
    | row => exact content
    | unknown => exact content
    | squareRoot =>
      simp only [symbolsAll_node, Omml.symbols_squareRoot]
      exact content
    | superscript =>
      refine perm_twoOperands inside ih (of_decide_eq_true operands) fun a b _ _ _ base sup => ?_
      rw [symbolsAll_node, Omml.symbols_superscript]
      exact base.append sup
    | subscript =>
      refine perm_twoOperands inside ih (of_decide_eq_true operands) fun a b _ _ _ base sub => ?_
      rw [symbolsAll_node, Omml.symbols_subscript]
      exact base.append sub
    | subSuperscript =>
      refine perm_threeOperands inside ih (of_decide_eq_true operands) fun a b c _ _ base sub sup => ?_
      rw [symbolsAll_node, Omml.symbols_subSuperscript]
      exact base.append (sub.append sup)
    | fraction =>
      refine perm_twoOperands inside ih (of_decide_eq_true operands) fun a b _ _ _ num den => ?_
      rw [symbolsAll_node, Omml.symbols_fraction]
      exact num.append den
    | root =>
      refine perm_twoOperands inside ih (of_decide_eq_true operands) fun a b _ _ _ base degree => ?_
      rw [symbolsAll_node, Omml.symbols_root]
      exact (degree.append base).trans List.perm_append_comm
    | lower =>
      refine perm_twoOperands inside ih (of_decide_eq_true operands) fun a b split regular _ base lower => ?_
      rw [baseOperator?_of_elements split]
      exact perm_lowerMarkup regular base lower
    | upper =>
      refine perm_twoOperands inside ih (of_decide_eq_true operands) fun a b split regular above base upper => ?_
      rw [baseOperator?_of_elements split]
      exact perm_upperMarkup regular base upper above fun glyph => trimmedText_of_accentGlyph? split
    | lowerUpper =>
      refine perm_threeOperands inside ih (of_decide_eq_true operands) fun a b c split regular base lower upper => ?_
      rw [baseOperator?_of_elements split]
      exact perm_lowerUpperMarkup regular base lower upper
    | table => exact perm_table inside ih (List.all_eq_true.1 operands)
    | token | ignored | fenced | space | semantics => cases operands

/-- The symbols of the markup of a formula are the texts of its tokens, each as often as it stands there. -/
theorem symbols_convertMath {name : String} {attrs : List Markup.Attr} {children : List Node}
    (root : plainName name = "math") (regular : isRegular (.element name attrs children) = true) :
    (Omml.formula (convertMath (.element name attrs children)).nodes).symbols.Perm
      (tokenTexts (.element name attrs children)) := by
  have kind : kindOf (plainName name) = .unknown := by rw [root]; decide
  rw [Omml.symbols_formula, convertMath, ← convertedSymbols_unknown kind attrs]
  exact keepsSymbols _ regular

/-- A token of one kind or another. -/
def tokenNode (name text : String) : Node := .element name [] [.text text.toList]

/-- A sum whose operator stands in a row, an accent, a root with a degree, and a table with an empty cell. -/
def everyOrder : List Node := [
  .element "munderover" [] [.element "mrow" [] [.text [' '], tokenNode "mo" " ∑ "], tokenNode "mi" "i", .text ['\n'],
    tokenNode "mi" "n"],
  .element "m:mover" [] [tokenNode "mi" "x", tokenNode "mo" "^"],
  .element "munderover" [] [tokenNode "mtext" "lim sup", tokenNode "mi" "i", tokenNode "mi" "j"],
  .element "mroot" [] [.element "msqrt" [] [tokenNode "mi" "x", tokenNode "mi" "x"], tokenNode "mn" "3"],
  .element "mtable" [] [.element "mtr" [] [.element "mtd" [] [tokenNode "mi" "x"], .element "mtd" [] []]]]

theorem symbols_convertMath_everyOrder :
    plainName "math" = "math" ∧ isRegular (.element "math" [] everyOrder) = true ∧
      tokenTexts (.element "math" [] everyOrder) =
        ["∑", "i", "n", "x", "^", "lim sup", "i", "j", "x", "x", "3", "x"].map String.toList ∧
      (Omml.formula (convertMath (.element "math" [] everyOrder)).nodes).symbols.Perm
        (tokenTexts (.element "math" [] everyOrder)) := by
  have root : plainName "math" = "math" := by decide
  have regular : isRegular (.element "math" [] everyOrder) = true := by decide +kernel
  exact ⟨root, regular, by decide +kernel, symbols_convertMath root regular⟩

end MathML

end OfficeFormula
