import OfficeFormula.Proofs.MathML.Symbols

/-!
# The shapes of tables

A matrix is rectangular if all its rows have the same number of cells. The conversion of a table gives each
row the cells that it has, and fills none up. So the matrices of the markup have the shapes of the tables
that are printed (`mem_convertedMatrices_iff`), and all of them are rectangular exactly if all those tables
are (`rectangular_convertMath_iff`).

What is printed of an element is said by its parts (`printedParts`), and one lemma tells the matrices of the
element from those of its parts (`convertedMatrices_element`).
-/

namespace OfficeFormula

/-- Rows of these lengths are all equally long. -/
def Rectangular (lengths : List Nat) : Prop := ∀ m ∈ lengths, ∀ n ∈ lengths, m = n

instance (lengths : List Nat) : Decidable (Rectangular lengths) :=
  inferInstanceAs (Decidable (∀ m ∈ lengths, ∀ n ∈ lengths, m = n))

namespace Omml

namespace Node

def hasTag (tag : String) : Node → Bool
  | element name _ _ => name = tag
  | text _ => false

/-- The number of cells of a row. -/
def cellCount : Node → Nat
  | element _ _ children => children.countP (hasTag "m:e")
  | text _ => 0

/-- The numbers of cells of the rows among nodes. -/
def rowLengths (ns : List Node) : List Nat := (ns.filter (hasTag "m:mr")).map cellCount

mutual

/-- The matrices in a tree, each by the numbers of cells of its rows. -/
def matrices : Node → List (List Nat)
  | element tag _ children => (if tag = "m:m" then [rowLengths children] else []) ++ matricesAll children
  | text _ => []

def matricesAll : List Node → List (List Nat)
  | [] => []
  | n :: ns => n.matrices ++ matricesAll ns

end

@[simp] theorem matricesAll_nil : matricesAll [] = [] := by rw [matricesAll]

@[simp] theorem matricesAll_cons (n : Node) (ns : List Node) :
    matricesAll (n :: ns) = n.matrices ++ matricesAll ns := by
  rw [matricesAll]

@[simp] theorem matricesAll_append (ns ms : List Node) :
    matricesAll (ns ++ ms) = matricesAll ns ++ matricesAll ms := by
  induction ns with
  | nil => rfl
  | cons n ns ih => rw [List.cons_append, matricesAll_cons, ih, matricesAll_cons, List.append_assoc]

/-- The matrices in nodes are those in each of them. -/
theorem matricesAll_map {α : Type} (f : α → Node) (as : List α) :
    matricesAll (as.map f) = as.flatMap fun a => (f a).matrices := by
  induction as with
  | nil => rfl
  | cons a as ih => rw [List.map_cons, matricesAll_cons, ih, List.flatMap_cons]

end Node

open Node (matricesAll)

/-! ## The matrices in each structure -/

/-- Only a matrix adds one to the matrices inside it. -/
@[simp] theorem matrices_element {tag : String} (other : "m:" ++ tag ≠ "m:m") (ns : List Node) :
    (element tag ns).matrices = matricesAll ns := by
  rw [element, Node.matrices, if_neg other, List.nil_append]

@[simp] theorem matrices_property {tag : String} (other : "m:" ++ tag ≠ "m:m") (value : Text) :
    (property tag value).matrices = [] := by
  rw [property, Node.matrices, if_neg other]
  rfl

@[simp] theorem matrices_run (t : Text) : (run t false).matrices = [] := by
  have text : (runText t).matrices = [] := by
    rw [runText, Node.matrices, if_neg (by decide)]
    split
    · rfl
    · simp [Node.matrices]
  rw [run, Node.matrices, if_neg (by decide)]
  simp [text]

section Structures

variable (base sub sup limit : List Node)

theorem matrices_fraction (num den : List Node) :
    (fraction num den).matrices = matricesAll num ++ matricesAll den := by
  simp (disch := decide) [fraction]

theorem matrices_squareRoot : (radical base [] true).matrices = matricesAll base := by
  simp (disch := decide) [radical]

theorem matrices_root (degree : List Node) :
    (radical base degree false).matrices = matricesAll degree ++ matricesAll base := by
  simp (disch := decide) [radical]

theorem matrices_subscript : (scripts base (some sub) none).matrices = matricesAll base ++ matricesAll sub := by
  simp (disch := decide) [scripts]

theorem matrices_superscript : (scripts base none (some sup)).matrices = matricesAll base ++ matricesAll sup := by
  simp (disch := decide) [scripts]

theorem matrices_subSuperscript :
    (scripts base (some sub) (some sup)).matrices = matricesAll base ++ (matricesAll sub ++ matricesAll sup) := by
  simp (disch := decide) [scripts]

theorem matrices_lowerLimit : (lowerLimit base limit).matrices = matricesAll base ++ matricesAll limit := by
  simp (disch := decide) [lowerLimit]

theorem matrices_upperLimit : (upperLimit base limit).matrices = matricesAll base ++ matricesAll limit := by
  simp (disch := decide) [upperLimit]

theorem matrices_accent (glyph : Text) : (accent base glyph).matrices = matricesAll base := by
  simp (disch := decide) [accent]

theorem matrices_naryProperties (glyph : Text) (sub sup : Option (List Node)) (limits : Option Text) :
    (naryProperties glyph sub sup limits).matrices = [] := by
  have hidden (tag : String) (other : "m:" ++ tag ≠ "m:m") (script : Option (List Node)) :
      matricesAll (if script.isNone then [property tag ['1']] else []) = [] := by
    split <;> simp [other]
  unfold naryProperties
  rw [matrices_element (by decide)]
  simp only [Node.matricesAll_append, hidden "subHide" (by decide), hidden "supHide" (by decide), List.append_nil]
  cases limits with
  | none => simp (disch := decide)
  | some place =>
    dsimp only
    split <;> simp (disch := decide)

/-- An operator has matrices in its limits only. -/
theorem matrices_nary (glyph : Text) (sub sup : Option (List Node)) (limits : Option Text) :
    (nary glyph sub sup [] limits).matrices = matricesAll (sub.getD []) ++ matricesAll (sup.getD []) := by
  rw [nary, matrices_element (by decide)]
  simp (disch := decide) [matrices_naryProperties]

theorem cellCount_row (cells : List (List Node)) :
    (element "mr" (cells.map (element "e"))).cellCount = cells.length := by
  have all : ∀ n ∈ cells.map (element "e"), n.hasTag "m:e" = true := by
    intro n hn
    obtain ⟨ns, _, rfl⟩ := List.mem_map.1 hn
    exact decide_eq_true (by decide : "m:" ++ "e" = "m:e")
  rw [element, Node.cellCount, List.countP_eq_length.2 all, List.length_map]

/-- A row is as long as it has cells. -/
theorem rowLengths_rows (rows : List (List (List Node))) :
    Node.rowLengths (rows.map fun row => element "mr" (row.map (element "e"))) = rows.map List.length := by
  have all : ∀ n ∈ rows.map fun row => element "mr" (row.map (element "e")), n.hasTag "m:mr" = true := by
    intro n hn
    obtain ⟨cells, _, rfl⟩ := List.mem_map.1 hn
    exact decide_eq_true (by decide : "m:" ++ "mr" = "m:mr")
  rw [Node.rowLengths, List.filter_eq_self.2 all, List.map_map]
  exact List.map_congr_left fun cells _ => cellCount_row cells

/-- A matrix comes before those in its cells. -/
theorem matrices_matrix (rows : List (List (List Node))) :
    (matrix rows).matrices = rows.map List.length :: rows.flatten.flatMap matricesAll := by
  have row (cells : List (List Node)) :
      (element "mr" (cells.map (element "e"))).matrices = cells.flatMap matricesAll := by
    rw [matrices_element (by decide), Node.matricesAll_map]
    simp (disch := decide)
  have tag : "m:" ++ "m" = "m:m" := by decide
  rw [matrix, element, tag, Node.matrices, if_pos rfl, rowLengths_rows, Node.matricesAll_map]
  simp only [row]
  rw [List.flatten_eq_flatMap, List.flatMap_assoc]
  rfl

end Structures

end Omml

namespace MathML

open Markup (Node)
open Omml.Node (matricesAll)

/-! ## What is printed -/

/-- What stands in an element. -/
def content : Node → List Node
  | .element _ _ children => children
  | .text _ | .comment _ => []

/-- The cells of a row of a table. The first cell of a labelled row is its label, and no part of the table. -/
def rowCells? : Node → Option (List Node)
  | .element name _ children =>
    if plainName name = "mtr" then some (children.filter isCell)
    else if plainName name = "mlabeledtr" then some ((children.filter isCell).drop 1)
    else none
  | .text _ | .comment _ => none

/-- The cells of each row of a table. -/
def tableCells (children : List Node) : List (List Node) := children.filterMap rowCells?

/-- The numbers of cells of the rows of a table. -/
def tableLengths (children : List Node) : List Nat := (tableCells children).map List.length

/-- What `f` says of the first two elements, if there are as many. -/
def twoOperands (f : Node → Node → List Node) (children : List Node) : List Node :=
  match elements children with
  | a :: b :: _ => f a b
  | _ => []

/-- What `f` says of the first three elements, if there are as many. -/
def threeOperands (f : Node → Node → Node → List Node) (children : List Node) : List Node :=
  match elements children with
  | a :: b :: c :: _ => f a b c
  | _ => []

/-- The parts of an element that are printed, in the order of the markup. A big operator and an accent are
printed as a glyph, whatever they are made of. -/
def printedParts (kind : Kind) (children : List Node) : List Node :=
  match kind with
  | .ignored | .token | .space => []
  | .row | .squareRoot | .fenced | .unknown => children
  | .superscript | .subscript | .fraction => twoOperands (fun a b => [a, b]) children
  | .root => twoOperands (fun base degree => [degree, base]) children
  | .subSuperscript => threeOperands (fun a b c => [a, b, c]) children
  | .lower =>
    twoOperands (fun base lower => if (baseOperator? children).isSome then [lower] else [base, lower]) children
  | .upper =>
    twoOperands (fun base upper =>
      if (baseOperator? children).isSome then [upper]
      else if (accentGlyph? children).isSome then [base]
      else [base, upper]) children
  | .lowerUpper =>
    threeOperands (fun base lower upper =>
      if (baseOperator? children).isSome then [lower, upper] else [base, upper, lower]) children
  | .table => (tableCells children).flatten.flatMap content
  | .semantics => (elements children).take 1

/-- A table with this content is printed as a part of the tree. -/
inductive PrintsTable : Node → List Node → Prop where
  | here {name : String} {attrs : List Markup.Attr} {children : List Node}
      (kind : kindOf (plainName name) = .table) : PrintsTable (.element name attrs children) children
  | part {name : String} {attrs : List Markup.Attr} {children table : List Node} {n : Node}
      (part : n ∈ printedParts (kindOf (plainName name)) children) (inside : PrintsTable n table) :
      PrintsTable (.element name attrs children) table

/-! ## Parts are smaller -/

theorem mem_of_mem_twoOperands {f : Node → Node → List Node} (parts : ∀ a b, f a b ⊆ [a, b]) {children : List Node}
    {n : Node} (h : n ∈ twoOperands f children) : n ∈ children := by
  unfold twoOperands at h
  split at h
  · next a b more operands =>
    have mem : n ∈ elements children := by
      rw [operands]
      exact List.mem_append_left more (parts a b h)
    exact List.mem_of_mem_filter mem
  · cases h

theorem mem_of_mem_threeOperands {f : Node → Node → Node → List Node} (parts : ∀ a b c, f a b c ⊆ [a, b, c])
    {children : List Node} {n : Node} (h : n ∈ threeOperands f children) : n ∈ children := by
  unfold threeOperands at h
  split at h
  · next a b c more operands =>
    have mem : n ∈ elements children := by
      rw [operands]
      exact List.mem_append_left more (parts a b c h)
    exact List.mem_of_mem_filter mem
  · cases h

/-- The cells of a row stand in the row. -/
theorem subset_of_rowCells? {row : Node} {cells : List Node} (h : rowCells? row = some cells) :
    cells ⊆ content row := by
  cases row with
  | element name attrs children =>
    rw [rowCells?] at h
    split at h
    · rw [← Option.some.inj h]
      exact List.filter_sublist.subset
    · split at h
      · rw [← Option.some.inj h]
        exact List.Subset.trans (List.drop_subset 1 _) List.filter_sublist.subset
      · cases h
  | text t => cases h
  | comment t => cases h

/-- A part stands in the element, or in a cell of a table. -/
theorem mem_of_mem_printedParts {kind : Kind} {children : List Node} {n : Node}
    (h : n ∈ printedParts kind children) :
    n ∈ children ∨ ∃ row ∈ children, ∃ cell ∈ content row, n ∈ content cell := by
  cases kind with
  | ignored | token | space => cases h
  | row | squareRoot | fenced | unknown => exact .inl h
  | superscript | subscript | fraction => exact .inl (mem_of_mem_twoOperands (by simp) h)
  | root => exact .inl (mem_of_mem_twoOperands (by simp) h)
  | subSuperscript => exact .inl (mem_of_mem_threeOperands (by simp) h)
  | lower =>
    refine .inl (mem_of_mem_twoOperands (fun base lower => ?_) h)
    split <;> simp
  | upper =>
    refine .inl (mem_of_mem_twoOperands (fun base upper => ?_) h)
    split
    · simp
    · split <;> simp
  | lowerUpper =>
    refine .inl (mem_of_mem_threeOperands (fun base lower upper => ?_) h)
    split <;> simp
  | table =>
    obtain ⟨cell, hcell, hn⟩ := List.mem_flatMap.1 h
    obtain ⟨cells, hcells, hcell⟩ := List.mem_flatten.1 hcell
    obtain ⟨row, hrow, found⟩ := List.mem_filterMap.1 hcells
    exact .inr ⟨row, hrow, cell, subset_of_rowCells? found hcell, hn⟩
  | semantics => exact .inl (List.mem_of_mem_filter (List.mem_of_mem_take h))

theorem sizeOf_lt_of_mem_content {n m : Node} (h : m ∈ content n) : sizeOf m < sizeOf n := by
  cases n with
  | element name attrs children =>
    have smaller := List.sizeOf_lt_of_mem (show m ∈ children from h)
    simp only [Node.element.sizeOf_spec]
    omega
  | text t => cases h
  | comment t => cases h

/-- What is printed of an element is smaller than the element. -/
theorem sizeOf_lt_of_mem_printedParts {name : String} {attrs : List Markup.Attr} {children : List Node} {kind : Kind}
    {n : Node} (h : n ∈ printedParts kind children) : sizeOf n < sizeOf (Node.element name attrs children) := by
  have here {m : Node} (hm : m ∈ children) : sizeOf m < sizeOf (Node.element name attrs children) :=
    sizeOf_lt_of_mem_content hm
  rcases mem_of_mem_printedParts h with h | ⟨row, hrow, cell, hcell, h⟩
  · exact here h
  · have := here hrow
    have := sizeOf_lt_of_mem_content hcell
    have := sizeOf_lt_of_mem_content h
    omega

/-! ## The matrices of an element -/

/-- The matrices in the markup of a node. -/
def convertedMatrices (n : Node) : List (List Nat) := matricesAll (convert n).nodes

theorem matricesAll_node (parts : List Converted) (n : Omml.Node) :
    matricesAll (Converted.node parts n).nodes = n.matrices := by
  simp [Converted.node]

theorem convertedMatrices_text (t : Text) : convertedMatrices (.text t) = [] := by
  rw [convertedMatrices, convert, textRun]
  split
  · rfl
  · simp

theorem convertedMatrices_comment (t : Text) : convertedMatrices (.comment t) = [] := by
  rw [convertedMatrices, convert]
  rfl

theorem matricesAll_convertContent (ns : List Node) :
    matricesAll (convertContent ns).nodes = ns.flatMap convertedMatrices := by
  induction ns with
  | nil => rw [convertContent]; rfl
  | cons n ns ih =>
    have split : (convertContent (n :: ns)).nodes = (convert n).nodes ++ (convertContent ns).nodes := by
      rw [convertContent]
      rfl
    rw [split, Omml.Node.matricesAll_append, ih, List.flatMap_cons]
    rfl

/-- Of an element that takes one operand only the first is printed. -/
theorem matricesAll_convertFirst (ns : List Node) :
    matricesAll (convertFirst ns).nodes = ((elements ns).take 1).flatMap convertedMatrices := by
  induction ns with
  | nil => rw [convertFirst]; rfl
  | cons n ns ih =>
    cases n with
    | element name attrs children =>
      rw [convertFirst, elements_cons, List.take_succ_cons, List.take_zero, List.flatMap_singleton]
      rfl
    | text t =>
      simp only [convertFirst]
      exact ih
    | comment t =>
      simp only [convertFirst]
      exact ih

theorem convertCells_eq_map (ns : List Node) :
    convertCells ns = (ns.filter isCell).map fun cell => convertContent (content cell) := by
  induction ns with
  | nil => rw [convertCells]; rfl
  | cons n ns ih =>
    cases n with
    | element name attrs children =>
      rw [convertCells]
      split
      · next named =>
        have cell : isCell (.element name attrs children) = true := decide_eq_true named
        rw [List.filter_cons_of_pos cell, ih, List.map_cons, content]
      · next named =>
        have cell : ¬isCell (.element name attrs children) = true := by simpa [isCell] using named
        rw [List.filter_cons_of_neg cell, ih]
    | text t =>
      simp only [convertCells]
      exact ih
    | comment t =>
      simp only [convertCells]
      exact ih

/-- Each cell is converted from its content, and nothing else of a row is. -/
theorem convertRows_eq_map (ns : List Node) :
    convertRows ns = (tableCells ns).map (·.map fun cell => convertContent (content cell)) := by
  induction ns with
  | nil => rw [convertRows]; rfl
  | cons n ns ih =>
    cases n with
    | element name attrs children =>
      rw [convertRows, convertCells_eq_map, ih, tableCells, tableCells, List.filterMap_cons, rowCells?]
      split
      · rfl
      · split
        · simp only [List.map_cons, List.map_drop]
        · rfl
    | text t =>
      simp only [convertRows]
      exact ih
    | comment t =>
      simp only [convertRows]
      exact ih

/-- A table is one matrix, with those in its cells behind it. -/
theorem matricesAll_table (children : List Node) :
    matricesAll (tableMarkup (convertRows children)).nodes =
      tableLengths children :: (printedParts .table children).flatMap convertedMatrices := by
  rw [tableMarkup, matricesAll_node, Omml.matrices_matrix, convertRows_eq_map, tableLengths, printedParts]
  congr 1
  · simp [Function.comp_def]
  · simp only [List.map_map, Function.comp_def, ← List.map_flatten, List.flatMap_map, List.flatMap_assoc,
      matricesAll_convertContent]

section Operands

variable {children : List Node}

theorem matricesAll_twoOperands {f : Converted → Converted → Converted} {parts : Node → Node → List Node}
    (hf : ∀ a b, matricesAll (f (convert a) (convert b)).nodes = (parts a b).flatMap convertedMatrices) :
    matricesAll (match convertElements children with
      | a :: b :: _ => f a b
      | _ => missingOperand).nodes = (twoOperands parts children).flatMap convertedMatrices := by
  rw [convertElements_eq_map, twoOperands]
  rcases elements children with _ | ⟨a, _ | ⟨b, more⟩⟩
  · simp [missingOperand]
  · simp [missingOperand]
  · exact hf a b

theorem matricesAll_threeOperands {f : Converted → Converted → Converted → Converted}
    {parts : Node → Node → Node → List Node}
    (hf : ∀ a b c, matricesAll (f (convert a) (convert b) (convert c)).nodes =
      (parts a b c).flatMap convertedMatrices) :
    matricesAll (match convertElements children with
      | a :: b :: c :: _ => f a b c
      | _ => missingOperand).nodes = (threeOperands parts children).flatMap convertedMatrices := by
  rw [convertElements_eq_map, threeOperands]
  rcases elements children with _ | ⟨a, _ | ⟨b, _ | ⟨c, more⟩⟩⟩
  · simp [missingOperand]
  · simp [missingOperand]
  · simp [missingOperand]
  · exact hf a b c

variable (operator accent : Option Char) (a b c : Node)

theorem matricesAll_lowerMarkup :
    matricesAll (lowerMarkup operator (convert a) (convert b)).nodes =
      (if operator.isSome then [b] else [a, b]).flatMap convertedMatrices := by
  cases operator with
  | none => simp [lowerMarkup, matricesAll_node, Omml.matrices_lowerLimit, convertedMatrices]
  | some glyph => simp [lowerMarkup, bigOperator, matricesAll_node, Omml.matrices_nary, convertedMatrices]

/-- An operator and an accent are printed as characters, so what is inside them is not. -/
theorem matricesAll_upperMarkup :
    matricesAll (upperMarkup operator accent (convert a) (convert b)).nodes =
      (if operator.isSome then [b] else if accent.isSome then [a] else [a, b]).flatMap convertedMatrices := by
  cases operator with
  | some glyph => simp [upperMarkup, bigOperator, matricesAll_node, Omml.matrices_nary, convertedMatrices]
  | none =>
    cases accent with
    | none => simp [upperMarkup, matricesAll_node, Omml.matrices_upperLimit, convertedMatrices]
    | some glyph => simp [upperMarkup, matricesAll_node, Omml.matrices_accent, convertedMatrices]

theorem matricesAll_lowerUpperMarkup :
    matricesAll (lowerUpperMarkup operator (convert a) (convert b) (convert c)).nodes =
      (if operator.isSome then [b, c] else [a, c, b]).flatMap convertedMatrices := by
  cases operator with
  | none =>
    simp [lowerUpperMarkup, matricesAll_node, Omml.matrices_lowerLimit, Omml.matrices_upperLimit, convertedMatrices]
  | some glyph => simp [lowerUpperMarkup, bigOperator, matricesAll_node, Omml.matrices_nary, convertedMatrices]

end Operands

/-- The matrices of an element are its own, if it is a table, and those of its parts. -/
theorem convertedMatrices_element (name : String) (attrs : List Markup.Attr) (children : List Node) :
    convertedMatrices (.element name attrs children) =
      (if kindOf (plainName name) = .table then [tableLengths children] else []) ++
        (printedParts (kindOf (plainName name)) children).flatMap convertedMatrices := by
  have content := matricesAll_convertContent children
  rw [convertedMatrices, convert]
  generalize kindOf (plainName name) = kind
  cases kind with
  | ignored => rfl
  | row => exact content
  | unknown => exact content
  | token => exact Omml.Node.matricesAll_cons _ _ |>.trans (by simp [printedParts])
  | space => exact Omml.Node.matricesAll_cons _ _ |>.trans (by simp [printedParts])
  | fenced => simpa [printedParts] using content
  | squareRoot =>
    simp only [matricesAll_node, Omml.matrices_squareRoot]
    exact content
  | superscript =>
    refine matricesAll_twoOperands fun base sup => ?_
    simp [matricesAll_node, Omml.matrices_superscript, convertedMatrices]
  | subscript =>
    refine matricesAll_twoOperands fun base sub => ?_
    simp [matricesAll_node, Omml.matrices_subscript, convertedMatrices]
  | subSuperscript =>
    refine matricesAll_threeOperands fun base sub sup => ?_
    simp [matricesAll_node, Omml.matrices_subSuperscript, convertedMatrices]
  | fraction =>
    refine matricesAll_twoOperands fun num den => ?_
    simp [matricesAll_node, Omml.matrices_fraction, convertedMatrices]
  | root =>
    refine matricesAll_twoOperands fun base degree => ?_
    simp [matricesAll_node, Omml.matrices_root, convertedMatrices]
  | lower => exact matricesAll_twoOperands fun base lower => matricesAll_lowerMarkup _ base lower
  | upper => exact matricesAll_twoOperands fun base upper => matricesAll_upperMarkup _ _ base upper
  | lowerUpper =>
    exact matricesAll_threeOperands fun base lower upper => matricesAll_lowerUpperMarkup _ base lower upper
  | table => exact matricesAll_table children
  | semantics => exact matricesAll_convertFirst children

/-! ## The matrices of a formula -/

/-- A matrix comes from a table that is printed, by induction over the tree. -/
theorem exists_printsTable {lengths : List Nat} (n : Node) (h : lengths ∈ convertedMatrices n) :
    ∃ table, PrintsTable n table ∧ tableLengths table = lengths := by
  -- The parts of a table are not among its children, so the induction is on the size.
  induction size : sizeOf n using Nat.strongRecOn generalizing n with | ind k ih => ?_
  cases n with
  | text t =>
    rw [convertedMatrices_text] at h
    cases h
  | comment t =>
    rw [convertedMatrices_comment] at h
    cases h
  | element name attrs children =>
    rw [convertedMatrices_element, List.mem_append] at h
    rcases h with h | h
    · split at h
      · next kind => exact ⟨children, .here kind, (List.mem_singleton.1 h).symm⟩
      · cases h
    · obtain ⟨m, part, h⟩ := List.mem_flatMap.1 h
      have smaller : sizeOf m < sizeOf (Node.element name attrs children) := sizeOf_lt_of_mem_printedParts part
      obtain ⟨table, printed, same⟩ := ih _ (size ▸ smaller) m h rfl
      exact ⟨table, .part part printed, same⟩

/-- The matrices in the markup are the tables that are printed, with as many cells in each row. -/
theorem mem_convertedMatrices_iff {n : Node} {lengths : List Nat} :
    lengths ∈ convertedMatrices n ↔ ∃ table, PrintsTable n table ∧ tableLengths table = lengths := by
  constructor
  · exact exists_printsTable n
  · rintro ⟨table, printed, rfl⟩
    induction printed with
    | here kind =>
      rw [convertedMatrices_element, if_pos kind]
      exact List.mem_append_left _ (List.mem_singleton_self _)
    | part part _ ih =>
      rw [convertedMatrices_element]
      exact List.mem_append_right _ (List.mem_flatMap.2 ⟨_, part, ih⟩)

/-- All matrices in the markup of a formula are rectangular exactly if all tables that are printed are. -/
theorem rectangular_convertMath_iff (name : String) (attrs : List Markup.Attr) (children : List Node) :
    (∀ lengths ∈ (Omml.formula (convertMath (.element name attrs children)).nodes).matrices, Rectangular lengths) ↔
      ∀ n ∈ children, ∀ table, PrintsTable n table → Rectangular (tableLengths table) := by
  have all : (Omml.formula (convertMath (.element name attrs children)).nodes).matrices =
      children.flatMap convertedMatrices := by
    rw [Omml.formula, Omml.matrices_element (by decide), convertMath, matricesAll_convertContent]
  rw [all]
  constructor
  · intro rectangular n hn table printed
    have mem := mem_convertedMatrices_iff.2 ⟨table, printed, rfl⟩
    exact rectangular _ (List.mem_flatMap.2 ⟨n, hn, mem⟩)
  · intro rectangular lengths h
    obtain ⟨n, hn, h⟩ := List.mem_flatMap.1 h
    obtain ⟨table, printed, rfl⟩ := mem_convertedMatrices_iff.1 h
    exact rectangular n hn table printed

/-- A table whose second row lacks a cell. -/
def raggedTable : Node :=
  .element "mtable" [] [
    .element "mtr" [] [.element "mtd" [] [tokenNode "mi" "a"], .element "mtd" [] [tokenNode "mi" "b"]],
    .element "mtr" [] [.element "mtd" [] [tokenNode "mi" "c"]]]

/-- A table with rows of different lengths becomes a matrix with such rows. -/
theorem not_rectangular_raggedTable :
    [2, 1] ∈ (Omml.formula (convertMath (.element "math" [] [raggedTable])).nodes).matrices ∧
      ¬Rectangular [2, 1] := by
  constructor
  · decide +kernel
  · decide

end MathML

end OfficeFormula
