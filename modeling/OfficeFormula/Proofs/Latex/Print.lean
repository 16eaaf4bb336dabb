import OfficeFormula.Latex.Parser
import OfficeFormula.Proofs.Latex.Lex

/-!
# Expressions as LaTeX

`Expr.print` writes an expression with a blank between its words. Not every expression can be written:
`Expr.isCanonical` tells those whose arguments, scripts and cells are in braces and whose atoms have a
spelling, and `isFormula` whole formulas of such items.
-/

namespace OfficeFormula.Latex

/-! ## Atoms -/

/-- A character that stands for itself in a formula and has no other role. -/
def isOrdinary (c : Char) : Bool := isSingle c && charToken? c = some (.literal c)

/-- The command for a glyph: the first that a table has. -/
def commandFor (table : List (String × Char)) (glyph : Char) : Token :=
  .command (((table.find? (·.2 = glyph)).map Prod.fst).getD "")

/-- A table of commands has the glyph. -/
def hasGlyph (table : List (String × Char)) (glyph : Char) : Bool := table.any (·.2 = glyph)

/-- The atom has a spelling. -/
def isSpellable : AtomKind → Text → Bool
  | .number, digits => isNumber digits
  | .operator, [c] => operatorChars.contains c || hasGlyph relations c
  | .symbol, [c] => hasGlyph symbols c
  | .text, [c] => isOrdinary c && c ≠ '&'
  | .text, name => name.length ≥ 2 && name.all isAsciiLetter && role (String.ofList name) = .unknown
  | .delimiter, [c] => operatorChars.contains c && c ≠ '.'
  | _, _ => false

def atomWords : AtomKind → Text → List Word
  | .number, digits => [[.number digits]]
  | .operator, [c] => if operatorChars.contains c then [[.operator c]] else [[commandFor relations c]]
  | .symbol, [c] => [[commandFor symbols c]]
  | .text, [c] => [[.literal c]]
  | .text, name => [[.command (String.ofList name)]]
  | .delimiter, [c] => [[.command "left"], [.operator c]]
  | _, _ => []

def isBigOperator : Text → Bool
  | [glyph] => hasGlyph bigOperators glyph
  | _ => false

def naryWords : Text → List Word
  | [glyph] => [[commandFor bigOperators glyph]]
  | _ => []

/-! ## Environments -/

/-- A character that the name of an environment may have: a letter or an asterisk, but also any other
that is a token by itself. -/
def isEnvironmentNameChar (c : Char) : Bool := isOrdinary c || operatorChars.contains c

def nameToken (c : Char) : Token := if operatorChars.contains c then .operator c else .literal c

/-- The name of an environment in braces, after the command that opens or closes it. -/
def nameWord (command name : String) : Word :=
  .command command :: .openGroup :: (name.toList.map nameToken ++ [.closeGroup])

/-- An empty column specification, where one is read. -/
def columnWords (name : String) : List Word :=
  if columnSpecEnvironments.contains name then [[.openGroup, .closeGroup]] else []

/-- What a sequence in braces holds. -/
def Expr.items : Expr → List Expr
  | .mk (.group items) _ _ => items
  | _ => []

/-! ## The printer -/

mutual

/-- The words that an expression is written with. -/
def Expr.words : Expr → List Word
  | .mk n sub sup => n.words ++ scriptWords .subscript sub ++ scriptWords .superscript sup

def Nucleus.words : Nucleus → List Word
  | .root items => wordsAll items
  | .group items => [.openGroup] :: wordsAll items ++ [[.closeGroup]]
  | .frac num den => [.command "frac"] :: num.words ++ den.words
  | .sqrt base => [.command "sqrt"] :: base.words
  | .radical base degree =>
    [.command "sqrt"] :: [.operator '['] :: degreeWords degree ++ [.operator ']'] :: base.words
  | .nary op => naryWords op
  | .atom kind value => atomWords kind value
  | .environment name rows =>
    nameWord "begin" name :: columnWords name ++ rowsWords rows ++ [nameWord "end" name]
  | .empty => [[.command ","]]
  | .hole => []

/-- A script with its mark. -/
def scriptWords (mark : Token) : Option Expr → List Word
  | none => []
  | some e => [mark] :: e.words

def wordsAll : List Expr → List Word
  | [] => []
  | e :: es => e.words ++ wordsAll es

/-- What a sequence in braces holds, without the braces. -/
def Expr.innerWords : Expr → List Word
  | .mk (.group items) _ _ => wordsAll items
  | _ => []

def degreeWords : Option Expr → List Word
  | none => []
  | some e => e.innerWords

def rowWords : List Expr → List Word
  | [] => []
  | cell :: cells => cell.innerWords ++ moreCellWords cells

/-- The cells after the first of a row. -/
def moreCellWords : List Expr → List Word
  | [] => []
  | cell :: cells => [.literal '&'] :: cell.innerWords ++ moreCellWords cells

def rowsWords : List (List Expr) → List Word
  | [] => []
  | row :: rows => rowWords row ++ moreRowWords rows

/-- The rows after the first. -/
def moreRowWords : List (List Expr) → List Word
  | [] => []
  | row :: rows => [.command rowBreakName] :: rowWords row ++ moreRowWords rows

end

/-- The expression as a formula. -/
def Expr.print (e : Expr) : Text := Text.join [' '] (e.words.map Word.text)

/-! ## What can be written -/

/-- An item that would close a degree. -/
def Expr.isClosingBracket : Expr → Bool
  | .mk (.atom .operator [']']) _ _ => true
  | _ => false

/-- No cell but an empty one. -/
def isBlankCells (row : List Expr) : Bool := isBlankRow (row.map Expr.items)

/-- The rows have cells, and a last one that reading would not drop. -/
def isGrid (rows : List (List Expr)) : Bool :=
  rows ≠ [] && rows.all (· ≠ []) && !(rows.length > 1 && rows.getLast?.any isBlankCells)

mutual

/-- An item that can be written. -/
def Expr.isCanonical : Expr → Bool
  | .mk n sub sup => n.isCanonical && isBracedScript sub && isBracedScript sup

def Nucleus.isCanonical : Nucleus → Bool
  | .root _ => false
  | .group items => allCanonical items
  | .frac num den => num.isBraced && den.isBraced
  | .sqrt base => base.isBraced
  | .radical base degree => base.isBraced && isBracedDegree degree
  | .nary op => isBigOperator op
  | .atom kind value => isSpellable kind value
  | .environment name rows => name.toList.all isEnvironmentNameChar && isGrid rows && rowsBraced rows
  | .empty => true
  | .hole => false

/-- A sequence in braces, without scripts, of items that can be written. -/
def Expr.isBraced : Expr → Bool
  | .mk (.group items) none none => allCanonical items
  | _ => false

def allCanonical : List Expr → Bool
  | [] => true
  | e :: es => e.isCanonical && allCanonical es

def isBracedScript : Option Expr → Bool
  | none => true
  | some e => e.isBraced

def isBracedDegree : Option Expr → Bool
  | none => false
  | some e => e.isBraced && e.items.all (!·.isClosingBracket)

def allBraced : List Expr → Bool
  | [] => true
  | cell :: cells => cell.isBraced && allBraced cells

def rowsBraced : List (List Expr) → Bool
  | [] => true
  | row :: rows => allBraced row && rowsBraced rows

end

/-- A whole formula that can be written. -/
def Expr.isFormula : Expr → Bool
  | .mk (.root items) none none => allCanonical items
  | _ => false

/-! ## Words of what is written -/

/-- The name of a command: letters. -/
structure IsCommandName (name : String) : Prop where
  ne : name ≠ ""
  letters : ∀ c ∈ name.toList, isAsciiLetter c = true

theorem isCommandName_of_all {name : String} (ne : name ≠ "") (h : name.toList.all isAsciiLetter = true) :
    IsCommandName name :=
  ⟨ne, List.all_eq_true.1 h⟩

/-- A table of commands may have the entry: its name is of letters, and has the role. -/
def isEntry (expected : Char → Role) (entry : String × Char) : Bool :=
  role entry.1 = expected entry.2 && entry.1 ≠ "" && entry.1.toList.all isAsciiLetter

/-- Every glyph of a table has a command that stands for it. -/
theorem exists_commandFor {table : List (String × Char)} {expected : Char → Role}
    (entries : table.all (isEntry expected) = true) {glyph : Char} (h : hasGlyph table glyph = true) :
    ∃ name, commandFor table glyph = .command name ∧ role name = expected glyph ∧ IsCommandName name := by
  obtain ⟨entry, mem, found⟩ := List.any_eq_true.1 h
  cases first : table.find? (·.2 = glyph) with
  | none =>
    have := List.find?_eq_none.1 first entry mem
    exact absurd found this
  | some entry' =>
    have glyph_eq : entry'.2 = glyph := by simpa using List.find?_some first
    have fine := List.all_eq_true.1 entries entry' (List.mem_of_find?_eq_some first)
    simp only [isEntry, Bool.and_eq_true, decide_eq_true_eq, List.all_eq_true] at fine
    refine ⟨entry'.1, by simp [commandFor, first], ?_, fine.1.2, fine.2⟩
    rw [fine.1.1, glyph_eq]

theorem isEntry_symbols : symbols.all (isEntry .symbol) = true := by decide

theorem isEntry_relations : relations.all (isEntry .relation) = true := by decide

theorem isEntry_bigOperators : bigOperators.all (isEntry .bigOperator) = true := by decide

/-- How each kind of atom is written. -/
inductive Spelled : AtomKind → Text → List Word → Prop where
  | number {digits : Text} (h : isNumber digits = true) : Spelled .number digits [[.number digits]]
  | operator {c : Char} (h : operatorChars.contains c = true) : Spelled .operator [c] [[.operator c]]
  | relation {c : Char} {name : String} (h : role name = .relation c) (isName : IsCommandName name) :
      Spelled .operator [c] [[.command name]]
  | symbol {c : Char} {name : String} (h : role name = .symbol c) (isName : IsCommandName name) :
      Spelled .symbol [c] [[.command name]]
  | literal {c : Char} (h : isOrdinary c = true) (ne : c ≠ '&') : Spelled .text [c] [[.literal c]]
  | unknown {name : String} (h : role name = .unknown) (isName : IsCommandName name) :
      Spelled .text name.toList [[.command name]]
  | delimiter {c : Char} (h : operatorChars.contains c = true) (ne : c ≠ '.') :
      Spelled .delimiter [c] [[.command "left"], [.operator c]]

/-- An atom that can be written has a spelling, and the printer writes it. -/
theorem spelled_atomWords {kind : AtomKind} {value : Text} (h : isSpellable kind value = true) :
    Spelled kind value (atomWords kind value) := by
  unfold isSpellable at h
  split at h
  · exact .number h
  · next c =>
    rw [Bool.or_eq_true] at h
    by_cases operator : operatorChars.contains c = true
    · rw [atomWords, if_pos operator]
      exact .operator operator
    · obtain ⟨name, command, hrole, isName⟩ :=
        exists_commandFor isEntry_relations (h.resolve_left operator)
      rw [atomWords, if_neg operator, command]
      exact .relation hrole isName
  · obtain ⟨name, command, hrole, isName⟩ := exists_commandFor isEntry_symbols h
    simpa [atomWords, command] using Spelled.symbol hrole isName
  · simp only [Bool.and_eq_true, decide_eq_true_eq] at h
    exact .literal h.1 h.2
  · simp only [Bool.and_eq_true, decide_eq_true_eq, List.all_eq_true] at h
    obtain ⟨⟨long, letters⟩, unknown⟩ := h
    have isName : IsCommandName (String.ofList value) := by
      constructor
      · intro empty
        have none : value = [] := by simpa using empty
        simp [none] at long
      · simpa using letters
    have spelled := Spelled.unknown unknown isName
    rw [String.toList_ofList] at spelled
    cases value with
    | nil => simp at long
    | cons c rest =>
      cases rest with
      | nil => simp at long
      | cons d rest => exact spelled
  · simp only [Bool.and_eq_true, decide_eq_true_eq] at h
    exact .delimiter h.1 h.2
  · simp at h

/-- A command whose name is made of letters is read back. -/
theorem lexes_command {name : String} (isName : IsCommandName name) : Word.Lexes [.command name] := by
  constructor
  · have alone : tokenize ('\\' :: (name.toList ++ [])) = .command name :: tokenize [] :=
      tokenize_command isName.ne isName.letters (by simp)
    simpa [Word.text, Token.text, tokenize_nil] using alone
  · simpa [eq_comm] using isName.ne

theorem charToken?_ne_command {c : Char} {token : Token} (h : charToken? c = some token)
    (name : String) : token ≠ .command name := by
  unfold charToken? at h
  rintro rfl
  repeat' split at h
  all_goals simp at h

/-- A character that is a token of its own is read back. -/
theorem lexes_char {c : Char} {token : Token} (single : isSingle c = true)
    (h : charToken? c = some token) (text : token.text = [c]) : Word.Lexes [token] := by
  constructor
  · rw [Word.text, List.flatMap_cons, List.flatMap_nil, List.append_nil, text,
      tokenize_cons single h, tokenize_nil]
  · simpa [eq_comm] using charToken?_ne_command h ""

theorem lexes_operator {c : Char} (h : operatorChars.contains c = true) :
    Word.Lexes [.operator c] := by
  obtain ⟨single, token⟩ := isSingle_of_mem_operatorChars h
  exact lexes_char single token rfl

theorem lexes_literal {c : Char} (h : isOrdinary c = true) : Word.Lexes [.literal c] := by
  simp only [isOrdinary, Bool.and_eq_true, decide_eq_true_eq] at h
  exact lexes_char h.1 h.2 rfl

/-- Each character of a name is a token of its own. -/
theorem nameToken_of_isEnvironmentNameChar {c : Char} (h : isEnvironmentNameChar c = true) :
    isSingle c = true ∧ charToken? c = some (nameToken c) ∧ (nameToken c).text = [c] := by
  by_cases operator : operatorChars.contains c = true
  · obtain ⟨single, token⟩ := isSingle_of_mem_operatorChars operator
    rw [nameToken, if_pos operator]
    exact ⟨single, token, rfl⟩
  · rw [isEnvironmentNameChar, Bool.or_eq_true, isOrdinary, Bool.and_eq_true, decide_eq_true_eq] at h
    obtain ⟨single, token⟩ := h.resolve_right operator
    rw [nameToken, if_neg operator]
    exact ⟨single, token, rfl⟩

theorem flatMap_text_nameToken {name : Text} (h : ∀ c ∈ name, isEnvironmentNameChar c = true) :
    (name.map nameToken).flatMap Token.text = name := by
  induction name with
  | nil => rfl
  | cons c cs ih =>
    rw [List.map_cons, List.flatMap_cons, (nameToken_of_isEnvironmentNameChar (h c List.mem_cons_self)).2.2,
      ih fun d hd => h d (List.mem_cons_of_mem _ hd), List.singleton_append]

theorem tokenize_name {name : Text} (h : ∀ c ∈ name, isEnvironmentNameChar c = true) (rest : Text) :
    tokenize (name ++ rest) = name.map nameToken ++ tokenize rest := by
  induction name with
  | nil => rfl
  | cons c cs ih =>
    obtain ⟨single, token, _⟩ := nameToken_of_isEnvironmentNameChar (h c List.mem_cons_self)
    rw [List.cons_append, tokenize_cons single token, ih fun d hd => h d (List.mem_cons_of_mem _ hd)]
    rfl

/-- The name of an environment is read back together with its braces. -/
theorem lexes_nameWord {command name : String} (isName : IsCommandName command)
    (h : ∀ c ∈ name.toList, isEnvironmentNameChar c = true) : Word.Lexes (nameWord command name) := by
  constructor
  · have text : (nameWord command name).text =
        '\\' :: (command.toList ++ '{' :: (name.toList ++ ['}'])) := by
      simp [nameWord, Word.text, Token.text, flatMap_text_nameToken h]
    have brace : ∀ c ∈ ('{' :: (name.toList ++ ['}'])).head?, isAsciiLetter c = false := by
      intro c hc
      rw [← Option.some.inj hc]
      decide
    have opens : charToken? '{' = some .openGroup := by decide
    have closes : charToken? '}' = some .closeGroup := by decide
    rw [text, tokenize_command isName.ne isName.letters brace, tokenize_cons (by decide) opens,
      tokenize_name h, tokenize_cons (by decide) closes, tokenize_nil]
    rfl
  · intro empty
    simp only [nameWord, List.mem_cons, Token.command.injEq, reduceCtorEq, false_or, List.mem_append,
      List.mem_map, List.not_mem_nil, or_false] at empty
    rcases empty with empty | ⟨c, hc, token⟩
    · exact isName.ne empty.symm
    · exact charToken?_ne_command (nameToken_of_isEnvironmentNameChar (h c hc)).2.1 "" token

theorem lexes_braces : Word.Lexes [.openGroup] ∧ Word.Lexes [.closeGroup] ∧
    Word.Lexes [.openGroup, .closeGroup] := by
  have opens : charToken? '{' = some .openGroup := by decide
  have closes : charToken? '}' = some .closeGroup := by decide
  refine ⟨lexes_char (by decide) opens rfl, lexes_char (by decide) closes rfl, ?_, by simp⟩
  change tokenize ['{', '}'] = _
  rw [tokenize_cons (by decide) opens, tokenize_cons (by decide) closes, tokenize_nil]

theorem lexes_silent : Word.Lexes [.command ","] ∧ Word.Lexes [.command rowBreakName] := by
  constructor
  · refine ⟨?_, by decide⟩
    change tokenize ['\\', ','] = _
    rw [tokenize, if_pos rfl]
    exact congrArg _ tokenize_nil
  · refine ⟨?_, by decide⟩
    change tokenize ['\\', '\\'] = _
    rw [tokenize, if_pos rfl]
    exact congrArg _ tokenize_nil

/-! ## Induction over what can be written -/

/-- The nucleus of an item that can be written, by its parts, all of whose items satisfy `P`. -/
inductive Shape (P : Expr → Prop) : Nucleus → Prop where
  | group {items : List Expr} (h : ∀ e ∈ items, P e) : Shape P (.group items)
  | frac {num den : List Expr} (hnum : ∀ e ∈ num, P e) (hden : ∀ e ∈ den, P e) :
      Shape P (.frac (.group num) (.group den))
  | sqrt {base : List Expr} (h : ∀ e ∈ base, P e) : Shape P (.sqrt (.group base))
  | radical {base degree : List Expr} (hbase : ∀ e ∈ base, P e) (hdegree : ∀ e ∈ degree, P e)
      (plain : ∀ e ∈ degree, e.isClosingBracket = false) :
      Shape P (.radical (.group base) (some (.group degree)))
  | nary {glyph : Char} {name : String} (command : commandFor bigOperators glyph = .command name)
      (h : role name = .bigOperator glyph) (isName : IsCommandName name) : Shape P (.nary [glyph])
  | atom {kind : AtomKind} {value : Text} (h : Spelled kind value (atomWords kind value)) :
      Shape P (.atom kind value)
  | environment {name : String} {rows : List (List (List Expr))}
      (chars : ∀ c ∈ name.toList, isEnvironmentNameChar c = true) (ne : rows ≠ []) (cells : ∀ row ∈ rows, row ≠ [])
      (last : dropBlankLastRow rows = rows) (h : ∀ row ∈ rows, ∀ cell ∈ row, ∀ e ∈ cell, P e) :
      Shape P (.environment name (rows.map (·.map .group)))
  | empty : Shape P .empty

/-- A grid ends with a row that has something in it, so no row of it is dropped. -/
theorem dropBlankLastRow_of_isGrid {rows : List (List (List Expr))}
    (h : isGrid (rows.map (·.map .group)) = true) :
    rows ≠ [] ∧ (∀ row ∈ rows, row ≠ []) ∧ dropBlankLastRow rows = rows := by
  have items (row : List (List Expr)) : isBlankCells (row.map .group) = isBlankRow row := by
    rw [isBlankCells, List.map_map]
    congr 1
    exact List.map_id' row
  simp only [isGrid, Bool.and_eq_true, decide_eq_true_eq, List.all_eq_true, Bool.not_eq_true',
    List.length_map, List.getLast?_map, Option.any_map] at h
  obtain ⟨⟨ne, cells⟩, last⟩ := h
  refine ⟨by simpa using ne, fun row hrow => ?_, ?_⟩
  · simpa using cells _ (List.mem_map_of_mem hrow)
  · rw [dropBlankLastRow, if_neg]
    simpa [Function.comp_def, items] using last

/-- `P` passes from the parts of an item that can be written to the item. -/
def Inherited (P : Expr → Prop) : Prop :=
  ∀ n (sub sup : Option (List Expr)), Shape P n → (∀ items ∈ sub, ∀ e ∈ items, P e) →
    (∀ items ∈ sup, ∀ e ∈ items, P e) → P (.mk n (sub.map .group) (sup.map .group))

mutual

/-- What passes from the parts of an item to the item holds of all that can be written. -/
theorem Expr.canonical_induction {P : Expr → Prop} (step : Inherited P) :
    (e : Expr) → e.isCanonical = true → P e
  | .mk n sub sup, h => by
    simp only [Expr.isCanonical, Bool.and_eq_true] at h
    obtain ⟨subItems, rfl, hsub⟩ := exists_script step sub h.1.2
    obtain ⟨supItems, rfl, hsup⟩ := exists_script step sup h.2
    exact step n subItems supItems (n.shape step h.1.1) hsub hsup

/-- The shape of what can be written, with the property for all the items inside. -/
theorem Nucleus.shape {P : Expr → Prop} (step : Inherited P) :
    (n : Nucleus) → n.isCanonical = true → Shape P n
  | .root items, h => by simp [Nucleus.isCanonical] at h
  | .group items, h => .group (forall_items step items (by simpa [Nucleus.isCanonical] using h))
  | .frac num den, h => by
    simp only [Nucleus.isCanonical, Bool.and_eq_true] at h
    obtain ⟨nums, rfl, hnum⟩ := num.exists_items step h.1
    obtain ⟨dens, rfl, hden⟩ := den.exists_items step h.2
    exact .frac hnum hden
  | .sqrt base, h => by
    obtain ⟨items, rfl, hbase⟩ := base.exists_items step (by simpa [Nucleus.isCanonical] using h)
    exact .sqrt hbase
  | .radical base none, h => by simp [Nucleus.isCanonical, isBracedDegree] at h
  | .radical base (some degree), h => by
    simp only [Nucleus.isCanonical, isBracedDegree, Bool.and_eq_true, List.all_eq_true,
      Bool.not_eq_true'] at h
    obtain ⟨items, rfl, hbase⟩ := base.exists_items step h.1
    obtain ⟨degrees, rfl, hdegree⟩ := degree.exists_items step h.2.1
    exact .radical hbase hdegree h.2.2
  | .nary [glyph], h => by
    obtain ⟨name, command, hrole, isName⟩ := exists_commandFor isEntry_bigOperators
      (by simpa [Nucleus.isCanonical, isBigOperator] using h)
    exact .nary command hrole isName
  | .nary [], h => by simp [Nucleus.isCanonical, isBigOperator] at h
  | .nary (_ :: _ :: _), h => by simp [Nucleus.isCanonical, isBigOperator] at h
  | .atom kind value, h => .atom (spelled_atomWords (by simpa [Nucleus.isCanonical] using h))
  | .environment name rows, h => by
    simp only [Nucleus.isCanonical, Bool.and_eq_true, List.all_eq_true] at h
    obtain ⟨rowItems, rfl, hrows⟩ := exists_rows step rows h.2
    obtain ⟨ne, cells, last⟩ := dropBlankLastRow_of_isGrid h.1.2
    exact .environment h.1.1 ne cells last hrows
  | .empty, _ => .empty
  | .hole, h => by simp [Nucleus.isCanonical] at h

theorem Expr.exists_items {P : Expr → Prop} (step : Inherited P) : (e : Expr) → e.isBraced = true →
    ∃ items, e = .group items ∧ ∀ i ∈ items, P i
  | .mk n sub sup, h => by
    match n, sub, sup, h with
    | .group items, none, none, h =>
      exact ⟨items, rfl, forall_items step items (by simpa [Expr.isBraced] using h)⟩

theorem forall_items {P : Expr → Prop} (step : Inherited P) :
    (es : List Expr) → allCanonical es = true → ∀ e ∈ es, P e
  | [], _ => by simp
  | e :: es, h => by
    simp only [allCanonical, Bool.and_eq_true] at h
    intro i hi
    rcases List.mem_cons.1 hi with here | hi
    · rw [here]
      exact e.canonical_induction step h.1
    · exact forall_items step es h.2 i hi

/-- A script that can be written is a group. -/
theorem exists_script {P : Expr → Prop} (step : Inherited P) :
    (script : Option Expr) → isBracedScript script = true →
    ∃ items : Option (List Expr), script = items.map .group ∧ ∀ is ∈ items, ∀ e ∈ is, P e
  | none, _ => ⟨none, rfl, by simp⟩
  | some e, h => by
    obtain ⟨items, rfl, hitems⟩ := e.exists_items step (by simpa [isBracedScript] using h)
    exact ⟨some items, rfl, by simpa using hitems⟩

theorem exists_cells {P : Expr → Prop} (step : Inherited P) : (row : List Expr) → allBraced row = true →
    ∃ cells : List (List Expr), row = cells.map .group ∧ ∀ cell ∈ cells, ∀ e ∈ cell, P e
  | [], _ => ⟨[], rfl, by simp⟩
  | cell :: row, h => by
    simp only [allBraced, Bool.and_eq_true] at h
    obtain ⟨items, rfl, hitems⟩ := cell.exists_items step h.1
    obtain ⟨cells, rfl, hcells⟩ := exists_cells step row h.2
    exact ⟨items :: cells, rfl, by simpa using ⟨hitems, hcells⟩⟩

/-- Cells that can be written are groups. -/
theorem exists_rows {P : Expr → Prop} (step : Inherited P) : (rows : List (List Expr)) → rowsBraced rows = true →
    ∃ rowItems : List (List (List Expr)), rows = rowItems.map (·.map .group) ∧
      ∀ row ∈ rowItems, ∀ cell ∈ row, ∀ e ∈ cell, P e
  | [], _ => ⟨[], rfl, by simp⟩
  | row :: rows, h => by
    simp only [rowsBraced, Bool.and_eq_true] at h
    obtain ⟨cells, rfl, hcells⟩ := exists_cells step row h.1
    obtain ⟨rowItems, rfl, hrows⟩ := exists_rows step rows h.2
    exact ⟨cells :: rowItems, rfl, by simpa using ⟨hcells, hrows⟩⟩

end

/-! ## The words of what can be written -/

theorem words_group (items : List Expr) :
    (Expr.group items).words = [.openGroup] :: wordsAll items ++ [[.closeGroup]] := by
  simp [Expr.group, Nucleus.plain, Expr.words, Nucleus.words, scriptWords]

/-- `Q` holds of every word that formulas are written with. -/
structure Covers (Q : Word → Prop) : Prop where
  command : ∀ {name}, IsCommandName name → Q [.command name]
  number : ∀ {digits}, isNumber digits = true → Q [.number digits]
  operator : ∀ {c}, operatorChars.contains c = true → Q [.operator c]
  literal : ∀ {c}, isOrdinary c = true → Q [.literal c]
  openGroup : Q [.openGroup]
  closeGroup : Q [.closeGroup]
  subscript : Q [.subscript]
  superscript : Q [.superscript]
  columns : Q [.openGroup, .closeGroup]
  environment : ∀ {command name}, IsCommandName command → (∀ c ∈ name.toList, isEnvironmentNameChar c = true) →
    Q (nameWord command name)
  silent : Q [.command ","]
  rowBreak : Q [.command rowBreakName]

section Words

variable {Q : Word → Prop}

theorem forall_wordsAll {items : List Expr} (h : ∀ e ∈ items, ∀ w ∈ e.words, Q w) :
    ∀ w ∈ wordsAll items, Q w := by
  induction items with
  | nil => simp [wordsAll]
  | cons e items ih =>
    simp only [wordsAll, List.mem_append]
    rintro w (hw | hw)
    · exact h e List.mem_cons_self w hw
    · exact ih (fun i hi => h i (List.mem_cons_of_mem _ hi)) w hw

variable (covers : Covers Q)
include covers

theorem forall_words_group {items : List Expr} (h : ∀ e ∈ items, ∀ w ∈ e.words, Q w) :
    ∀ w ∈ (Expr.group items).words, Q w := by
  simp only [words_group, List.mem_append, List.mem_cons, List.not_mem_nil, or_false]
  rintro w ((rfl | hw) | rfl)
  · exact covers.openGroup
  · exact forall_wordsAll h w hw
  · exact covers.closeGroup

theorem forall_scriptWords {mark : Token} (hmark : Q [mark]) {script : Option (List Expr)}
    (h : ∀ items ∈ script, ∀ e ∈ items, ∀ w ∈ e.words, Q w) :
    ∀ w ∈ scriptWords mark (script.map .group), Q w := by
  cases script with
  | none => simp [scriptWords]
  | some items =>
    simp only [Option.map_some, scriptWords, List.mem_cons]
    rintro w (rfl | hw)
    · exact hmark
    · exact forall_words_group covers (h items rfl) w hw

theorem forall_rowWords {row : List (List Expr)} (h : ∀ cell ∈ row, ∀ e ∈ cell, ∀ w ∈ e.words, Q w) :
    ∀ w ∈ rowWords (row.map .group), Q w := by
  have more {row : List (List Expr)} (h : ∀ cell ∈ row, ∀ e ∈ cell, ∀ w ∈ e.words, Q w) :
      ∀ w ∈ moreCellWords (row.map .group), Q w := by
    induction row with
    | nil => simp [moreCellWords]
    | cons items row ih =>
      simp only [List.map_cons, moreCellWords, List.cons_append, List.mem_cons, List.mem_append]
      rintro w (rfl | hw | hw)
      · exact covers.literal (by decide)
      · exact forall_wordsAll (h items List.mem_cons_self) w hw
      · exact ih (fun c hc => h c (List.mem_cons_of_mem _ hc)) w hw
  cases row with
  | nil => simp [rowWords]
  | cons items row =>
    simp only [List.map_cons, rowWords, List.mem_append]
    rintro w (hw | hw)
    · exact forall_wordsAll (h items List.mem_cons_self) w hw
    · exact more (fun c hc => h c (List.mem_cons_of_mem _ hc)) w hw

theorem forall_rowsWords {rows : List (List (List Expr))}
    (h : ∀ row ∈ rows, ∀ cell ∈ row, ∀ e ∈ cell, ∀ w ∈ e.words, Q w) :
    ∀ w ∈ rowsWords (rows.map (·.map .group)), Q w := by
  have more {rows : List (List (List Expr))}
      (h : ∀ row ∈ rows, ∀ cell ∈ row, ∀ e ∈ cell, ∀ w ∈ e.words, Q w) :
      ∀ w ∈ moreRowWords (rows.map (·.map .group)), Q w := by
    induction rows with
    | nil => simp [moreRowWords]
    | cons cells rows ih =>
      simp only [List.map_cons, moreRowWords, List.cons_append, List.mem_cons, List.mem_append]
      rintro w (rfl | hw | hw)
      · exact covers.rowBreak
      · exact forall_rowWords covers (h cells List.mem_cons_self) w hw
      · exact ih (fun c hc => h c (List.mem_cons_of_mem _ hc)) w hw
  cases rows with
  | nil => simp [rowsWords]
  | cons cells rows =>
    simp only [List.map_cons, rowsWords, List.mem_append]
    rintro w (hw | hw)
    · exact forall_rowWords covers (h cells List.mem_cons_self) w hw
    · exact more (fun c hc => h c (List.mem_cons_of_mem _ hc)) w hw

theorem forall_columnWords (name : String) : ∀ w ∈ columnWords name, Q w := by
  unfold columnWords
  split
  · simpa using covers.columns
  · simp

theorem Spelled.forall_words {kind : AtomKind} {value : Text} {ws : List Word}
    (spelled : Spelled kind value ws) : ∀ w ∈ ws, Q w := by
  intro w hw
  cases spelled with
  | number h => rw [List.mem_singleton.1 hw]; exact covers.number h
  | operator h => rw [List.mem_singleton.1 hw]; exact covers.operator h
  | relation _ isName => rw [List.mem_singleton.1 hw]; exact covers.command isName
  | symbol _ isName => rw [List.mem_singleton.1 hw]; exact covers.command isName
  | literal h => rw [List.mem_singleton.1 hw]; exact covers.literal h
  | unknown _ isName => rw [List.mem_singleton.1 hw]; exact covers.command isName
  | delimiter h =>
    simp only [List.mem_cons, List.not_mem_nil, or_false] at hw
    rcases hw with rfl | rfl
    · exact covers.command (isCommandName_of_all (by decide) (by decide))
    · exact covers.operator h

/-- The words of an item are its own and those of the items in it. -/
theorem Shape.forall_words {n : Nucleus} (shape : Shape (fun e => ∀ w ∈ e.words, Q w) n) :
    ∀ w ∈ n.words, Q w := by
  have command {name : String} (ne : name ≠ "") (h : name.toList.all isAsciiLetter = true) :=
    covers.command (isCommandName_of_all ne h)
  intro w hw
  cases shape with
  | group h =>
    simp only [Nucleus.words, List.mem_append, List.mem_cons, List.not_mem_nil, or_false] at hw
    rcases hw with (rfl | hw) | rfl
    · exact covers.openGroup
    · exact forall_wordsAll h w hw
    · exact covers.closeGroup
  | frac hnum hden =>
    simp only [Nucleus.words, List.mem_append, List.mem_cons] at hw
    rcases hw with (rfl | hw) | hw
    · exact command (by decide) (by decide)
    · exact forall_words_group covers hnum w hw
    · exact forall_words_group covers hden w hw
  | sqrt h =>
    simp only [Nucleus.words, List.mem_cons] at hw
    rcases hw with rfl | hw
    · exact command (by decide) (by decide)
    · exact forall_words_group covers h w hw
  | radical hbase hdegree plain =>
    simp only [Nucleus.words, List.mem_append, List.mem_cons] at hw
    rcases hw with (rfl | rfl | hw) | rfl | hw
    · exact command (by decide) (by decide)
    · exact covers.operator (by decide)
    · exact forall_wordsAll hdegree w hw
    · exact covers.operator (by decide)
    · exact forall_words_group covers hbase w hw
  | nary named _ isName =>
    simp only [Nucleus.words, naryWords, named, List.mem_singleton] at hw
    rw [hw]
    exact covers.command isName
  | atom h => exact h.forall_words covers w hw
  | @environment name rows chars _ _ _ h =>
    simp only [Nucleus.words, List.mem_append, List.mem_cons, List.not_mem_nil, or_false] at hw
    rcases hw with ((rfl | hw) | hw) | rfl
    · exact covers.environment (isCommandName_of_all (by decide) (by decide)) chars
    · exact forall_columnWords covers name w hw
    · exact forall_rowsWords covers h w hw
    · exact covers.environment (isCommandName_of_all (by decide) (by decide)) chars
  | empty =>
    rw [List.mem_singleton.1 hw]
    exact covers.silent

/-- What holds of the words that formulas are written with holds of the words of what can be written. -/
theorem inherited_words : Inherited fun e => ∀ w ∈ e.words, Q w := by
  intro n sub sup shape hsub hsup w hw
  simp only [Expr.words, List.mem_append] at hw
  rcases hw with (hw | hw) | hw
  · exact shape.forall_words covers w hw
  · exact forall_scriptWords covers covers.subscript hsub w hw
  · exact forall_scriptWords covers covers.superscript hsup w hw

end Words

/-- Each word is read back to the tokens it is made of. -/
theorem covers_lexes : Covers Word.Lexes where
  command := lexes_command
  number h := ⟨by simpa [Word.text, Token.text] using tokenize_number h, by simp⟩
  operator := lexes_operator
  literal := lexes_literal
  openGroup := lexes_braces.1
  closeGroup := lexes_braces.2.1
  subscript := lexes_char (c := '_') (by decide) (by decide) rfl
  superscript := lexes_char (c := '^') (by decide) (by decide) rfl
  columns := lexes_braces.2.2
  environment := lexes_nameWord
  silent := lexes_silent.1
  rowBreak := lexes_silent.2

/-- The tokens of a formula that has been written. -/
theorem tokenize_print {items : List Expr} (h : allCanonical items = true) :
    tokenize (Nucleus.root items).plain.print = (wordsAll items).flatten := by
  have words : (Nucleus.root items).plain.words = wordsAll items := by
    simp [Nucleus.plain, Expr.words, Nucleus.words, scriptWords]
  rw [Expr.print, words]
  exact tokenize_join (forall_wordsAll (forall_items (inherited_words covers_lexes) items h))

end OfficeFormula.Latex
