import OfficeFormula.Proofs.Latex.Print
import OfficeFormula.Proofs.Latex.Reading

/-!
# Reading what has been written

Each function of the grammar stops where its own part of a written expression ends, whatever it stands
in: an item before anything that does not go on with scripts, a sequence before its closer, a body
before its end. From that every written formula is read back (`parse_print`).
-/

namespace OfficeFormula.Latex

/-! ## Where items begin and end -/

/-- A token that an item may begin with. -/
def startsItem : Token → Bool
  | .closeGroup | .subscript | .superscript => false
  | .literal c => c ≠ '&'
  | .command name => name ≠ "end" && name ≠ rowBreakName && !limitModifiers.contains name
  | _ => true

theorem startsItem_command {name : String} (ends : role name ≠ .endEnvironment)
    (silent : role name ≠ .silent) : startsItem (.command name) = true := by
  simp only [startsItem, Bool.and_eq_true, decide_eq_true_eq, Bool.not_eq_true']
  refine ⟨⟨?_, ?_⟩, ?_⟩
  · rintro rfl
    exact ends (by decide)
  · rintro rfl
    exact silent (by decide)
  · cases modifier : limitModifiers.contains name with
    | false => rfl
    | true =>
      simp only [limitModifiers, List.contains_iff_mem, List.mem_cons, List.not_mem_nil,
        or_false] at modifier
      rcases modifier with rfl | rfl
      · exact absurd (by decide) silent
      · exact absurd (by decide) silent

/-- No item begins with a script mark or a modifier. -/
theorem endsScripts_of_startsItem {token : Token} (h : startsItem token = true) (more : List Token) :
    endsScripts (token :: more) = true := by
  cases token with
  | command name =>
    simp only [startsItem, Bool.and_eq_true] at h
    exact h.2
  | subscript => simp [startsItem] at h
  | superscript => simp [startsItem] at h
  | _ => rfl

/-- An item that is read back, before anything that does not go on with scripts. -/
structure Readable (e : Expr) : Prop where
  first : ∃ token more, e.words.flatten = token :: more ∧ startsItem token = true ∧
    (token = .operator ']' → e.isClosingBracket = true)
  reads : ∀ rest, endsScripts rest = true →
    reading (expression (e.words.flatten ++ rest)) = (e, rest)

theorem Readable.ne_closeGroup {e : Expr} (readable : Readable e) :
    ∃ token more, e.words.flatten = token :: more ∧ token ≠ .closeGroup := by
  obtain ⟨token, more, text, starts, _⟩ := readable.first
  refine ⟨token, more, text, ?_⟩
  rintro rfl
  simp [startsItem] at starts

/-- A sequence goes on before an item, unless `stop` is true of its first token. -/
theorem Readable.goesOn {e : Expr} (readable : Readable e) {stop : Token → Bool}
    (other : ∀ token more, e.words.flatten = token :: more → stop token = false) :
    ∃ token more, e.words.flatten = token :: more ∧ ¬(token = .closeGroup ∨ stop token = true) := by
  obtain ⟨token, more, text, ne⟩ := readable.ne_closeGroup
  have goes : ¬stop token = true := by simp [other token more text]
  exact ⟨token, more, text, not_or.2 ⟨ne, goes⟩⟩

/-! ## The tokens of what is in braces -/

theorem words_nucleus_group (items : List Expr) : (Nucleus.group items).words = (Expr.group items).words := by
  rw [words_group, Nucleus.words]

theorem flatten_words_group (items : List Expr) (rest : List Token) :
    (Expr.group items).words.flatten ++ rest =
      .openGroup :: ((wordsAll items).flatten ++ .closeGroup :: rest) := by
  simp [words_group]

theorem flatten_words_frac (num den : Expr) (rest : List Token) :
    (Nucleus.frac num den).words.flatten ++ rest =
      .command "frac" :: (num.words.flatten ++ (den.words.flatten ++ rest)) := by
  simp [Nucleus.words]

theorem flatten_words_sqrt (base : Expr) (rest : List Token) :
    (Nucleus.sqrt base).words.flatten ++ rest = .command "sqrt" :: (base.words.flatten ++ rest) := by
  simp [Nucleus.words]

/-- The degree stands in brackets, without braces of its own. -/
theorem flatten_words_radical (base : Expr) (degree : List Expr) (rest : List Token) :
    (Nucleus.radical base (some (.group degree))).words.flatten ++ rest =
      .command "sqrt" :: .operator '[' :: ((wordsAll degree).flatten ++
        .operator ']' :: (base.words.flatten ++ rest)) := by
  simp [Nucleus.words, degreeWords, Expr.innerWords, Expr.group, Nucleus.plain]

theorem flatten_words_mk (n : Nucleus) (sub sup : Option Expr) :
    (Expr.mk n sub sup).words.flatten =
      n.words.flatten ++ ((scriptWords .subscript sub).flatten ++ (scriptWords .superscript sup).flatten) := by
  simp [Expr.words]

/-! ## Sequences -/

section Sequences

variable {items : List Expr}

/-- Scripts end before items, and before what ends them otherwise. -/
theorem endsScripts_wordsAll (readable : ∀ e ∈ items, Readable e) {rest : List Token}
    (ends : endsScripts rest = true) : endsScripts ((wordsAll items).flatten ++ rest) = true := by
  cases items with
  | nil => exact ends
  | cons e items =>
    obtain ⟨token, more, text, starts, _⟩ := (readable e List.mem_cons_self).first
    rw [wordsAll, List.flatten_append, text]
    exact endsScripts_of_startsItem starts _

/-- A sequence ends before its closer, unless one of its own items is taken for that. -/
theorem reading_sequence {stop : Token → Bool} {closer : Token}
    (closes : closer = .closeGroup ∨ stop closer = true) {more : List Token}
    (ends : endsScripts (closer :: more) = true) (readable : ∀ e ∈ items, Readable e)
    (other : ∀ e ∈ items, ∀ token more, e.words.flatten = token :: more → stop token = false) :
    reading (sequence stop ((wordsAll items).flatten ++ closer :: more)) = (items, closer :: more) := by
  induction items with
  | nil => exact reading_sequence_stop more closes
  | cons e items ih =>
    have rest := fun i hi => readable i (List.mem_cons_of_mem e hi)
    obtain ⟨token, after, text, go⟩ := (readable e List.mem_cons_self).goesOn (other e List.mem_cons_self)
    have reads := (readable e List.mem_cons_self).reads _ (endsScripts_wordsAll rest ends)
    rw [wordsAll, List.flatten_append, List.append_assoc, text, List.cons_append,
      reading_sequence_cons _ go, ← List.cons_append, ← text, reads,
      ih rest fun i hi => other i (List.mem_cons_of_mem e hi)]

/-- A group is read back with its items. -/
theorem reading_nucleus_group (readable : ∀ e ∈ items, Readable e) (rest : List Token) :
    reading (nucleus ((Expr.group items).words.flatten ++ rest)) = (.group items, rest) := by
  have inside : reading (sequence (fun _ => false) ((wordsAll items).flatten ++ .closeGroup :: rest)) =
      (items, .closeGroup :: rest) :=
    reading_sequence (.inl rfl) rfl readable (by simp)
  rw [flatten_words_group, reading_nucleus_openGroup, reading_group, inside]
  rfl

end Sequences

/-! ## Scripts -/

/-- Scripts in braces are read back, the lower one first. -/
theorem reading_scripts (n : Nucleus) {sub sup : Option (List Expr)}
    (hsub : ∀ items ∈ sub, ∀ e ∈ items, Readable e) (hsup : ∀ items ∈ sup, ∀ e ∈ items, Readable e)
    {rest : List Token} (ends : endsScripts rest = true) :
    reading (scripts n.plain ((scriptWords .subscript (sub.map .group)).flatten ++
        ((scriptWords .superscript (sup.map .group)).flatten ++ rest))) =
      (.mk n (sub.map .group) (sup.map .group), rest) := by
  have upper (e : Expr) (none : e.sup = none) :
      reading (scripts e ((scriptWords .superscript (sup.map .group)).flatten ++ rest)) =
        (.mk e.nucleus e.sub (sup.map .group), rest) := by
    obtain ⟨n, sub', sup'⟩ := e
    obtain rfl : sup' = Option.none := none
    cases sup with
    | none => exact reading_scripts_end _ ends
    | some items =>
      simp only [Option.map_some, scriptWords, List.flatten_cons, List.cons_append, List.nil_append]
      rw [reading_scripts_superscript, reading_nucleus_group (hsup items rfl),
        reading_scripts_end _ ends]
      rfl
  cases sub with
  | none => exact upper n.plain rfl
  | some items =>
    simp only [Option.map_some, scriptWords, List.flatten_cons, List.cons_append, List.nil_append]
    rw [reading_scripts_subscript, reading_nucleus_group (hsub items rfl)]
    exact upper _ rfl

/-! ## Environments -/

/-- The name is read back from the tokens of its characters. -/
theorem reading_environmentName {name : String} (chars : ∀ c ∈ name.toList, isEnvironmentNameChar c = true)
    (rest : List Token) :
    reading (environmentName (.openGroup :: (name.toList.map nameToken ++ .closeGroup :: rest))) =
      (name, rest) := by
  have inside : ∀ token ∈ name.toList.map nameToken, decide (token ≠ .closeGroup) = true := by
    intro token mem
    obtain ⟨c, _, rfl⟩ := List.mem_map.1 mem
    unfold nameToken
    split <;> simp
  have named : (name.toList.map nameToken ++ .closeGroup :: rest).takeWhile (· ≠ .closeGroup) =
      name.toList.map nameToken := by
    rw [List.takeWhile_append_of_pos inside]
    simp
  simp only [environmentName, reading, named]
  rw [flatMap_text_nameToken chars, String.ofList_toList]
  simp [List.drop_append]

theorem afterColumns_columnWords (name : String) (ts : List Token) :
    afterColumns name ((columnWords name).flatten ++ ts) = ts := by
  unfold afterColumns columnWords
  cases columnSpecEnvironments.contains name with
  | false => rfl
  | true =>
    have braces : reading (nucleus (.openGroup :: .closeGroup :: ts)) = (.group [], ts) := by
      rw [reading_nucleus_openGroup, reading_group, reading_sequence_stop _ (.inl rfl)]
      rfl
    exact congrArg Prod.snd braces

/-- The pieces of the cells after the first of a row. -/
def moreCellPieces (cells : List (List Expr)) : List Piece :=
  cells.flatMap fun cell => .cellBreak :: cell.map .item

def rowPieces : List (List Expr) → List Piece
  | [] => []
  | cell :: cells => cell.map .item ++ moreCellPieces cells

/-- The pieces of the rows after the first. -/
def moreRowPieces (rows : List (List (List Expr))) : List Piece :=
  rows.flatMap fun row => .rowBreak :: rowPieces row

def rowsPieces : List (List (List Expr)) → List Piece
  | [] => []
  | row :: rows => rowPieces row ++ moreRowPieces rows

theorem rowsOfPieces_items (items : List Expr) {ps : List Piece} {cell : List Expr}
    {cells : List (List Expr)} {rows : List (List (List Expr))}
    (h : rowsOfPieces ps = (cell :: cells) :: rows) :
    rowsOfPieces (items.map .item ++ ps) = ((items ++ cell) :: cells) :: rows := by
  induction items with
  | nil => exact h
  | cons e items ih => simp only [List.map_cons, List.cons_append, rowsOfPieces, ih]

theorem rowsOfPieces_moreCellPieces (cells : List (List Expr)) {ps : List Piece}
    {rows : List (List (List Expr))} (h : rowsOfPieces ps = [[]] :: rows) :
    rowsOfPieces (moreCellPieces cells ++ ps) = ([] :: cells) :: rows := by
  induction cells with
  | nil => exact h
  | cons cell cells ih =>
    have inside := rowsOfPieces_items cell ih
    rw [moreCellPieces, List.flatMap_cons, List.append_assoc, List.cons_append, rowsOfPieces,
      ← moreCellPieces, inside, List.append_nil]

/-- A row is found again before the break that ends it. -/
theorem rowsOfPieces_rowPieces {row : List (List Expr)} (ne : row ≠ []) {ps : List Piece}
    {rows : List (List (List Expr))} (h : rowsOfPieces ps = [[]] :: rows) :
    rowsOfPieces (rowPieces row ++ ps) = row :: rows := by
  obtain ⟨cell, cells, rfl⟩ := List.exists_cons_of_ne_nil ne
  rw [rowPieces, List.append_assoc, rowsOfPieces_items cell (rowsOfPieces_moreCellPieces cells h),
    List.append_nil]

theorem rowsOfPieces_moreRowPieces {rows : List (List (List Expr))} (cells : ∀ row ∈ rows, row ≠ []) :
    rowsOfPieces (moreRowPieces rows) = [[]] :: rows := by
  induction rows with
  | nil => rfl
  | cons row rows ih =>
    have more := ih fun r hr => cells r (List.mem_cons_of_mem row hr)
    rw [moreRowPieces, List.flatMap_cons, List.cons_append, rowsOfPieces, ← moreRowPieces,
      rowsOfPieces_rowPieces (cells row List.mem_cons_self) more]

/-- Rows that have been taken apart are put together again. -/
theorem rowsOfPieces_rowsPieces {rows : List (List (List Expr))} (ne : rows ≠ [])
    (cells : ∀ row ∈ rows, row ≠ []) : rowsOfPieces (rowsPieces rows) = rows := by
  obtain ⟨row, rows, rfl⟩ := List.exists_cons_of_ne_nil ne
  rw [rowsPieces, rowsOfPieces_rowPieces (cells row List.mem_cons_self)
    (rowsOfPieces_moreRowPieces fun r hr => cells r (List.mem_cons_of_mem row hr))]

/-- Tokens of a body, whatever follows them there, are read as the pieces. -/
structure ReadAs (ts : List Token) (ps : List Piece) : Prop where
  ends : ∀ rest, endsScripts rest = true → endsScripts (ts ++ rest) = true
  body : ∀ rest, endsScripts rest = true →
    reading (body (ts ++ rest)) = (ps ++ (reading (body rest)).1, (reading (body rest)).2)

namespace ReadAs

theorem nil : ReadAs [] [] := ⟨fun _ ends => ends, fun _ _ => rfl⟩

/-- What is read in pieces can be read one after the other. -/
theorem append {ts us : List Token} {ps qs : List Piece} (first : ReadAs ts ps)
    (second : ReadAs us qs) : ReadAs (ts ++ us) (ps ++ qs) := by
  constructor
  · intro rest ends
    rw [List.append_assoc]
    exact first.ends _ (second.ends rest ends)
  · intro rest ends
    rw [List.append_assoc, first.body _ (second.ends rest ends), second.body rest ends,
      List.append_assoc]

theorem cellBreak : ReadAs [.literal '&'] [.cellBreak] :=
  ⟨fun _ _ => rfl, fun rest _ => reading_body_cellBreak rest⟩

theorem rowBreak : ReadAs [.command rowBreakName] [.rowBreak] :=
  ⟨fun _ _ => show (!limitModifiers.contains rowBreakName) = true by decide,
    fun rest _ => reading_body_rowBreak rest⟩

theorem item {e : Expr} (readable : Readable e) : ReadAs e.words.flatten [.item e] := by
  obtain ⟨token, more, text, starts, _⟩ := readable.first
  constructor
  · intro rest _
    rw [text]
    exact endsScripts_of_startsItem starts _
  · intro rest ends
    have reads := readable.reads rest ends
    rw [text] at reads ⊢
    rw [List.cons_append] at reads ⊢
    rw [reading_body_item _ _ _ _ _, reads]
    · rfl
    all_goals
      rintro rfl
      simp [startsItem] at starts

theorem items {items : List Expr} (readable : ∀ e ∈ items, Readable e) :
    ReadAs (wordsAll items).flatten (items.map .item) := by
  induction items with
  | nil => exact nil
  | cons e items ih =>
    rw [wordsAll, List.flatten_append]
    exact (item (readable e List.mem_cons_self)).append
      (ih fun i hi => readable i (List.mem_cons_of_mem e hi))

theorem row {cells : List (List Expr)} (readable : ∀ cell ∈ cells, ∀ e ∈ cell, Readable e) :
    ReadAs (rowWords (cells.map .group)).flatten (rowPieces cells) := by
  have more {cells : List (List Expr)} (readable : ∀ cell ∈ cells, ∀ e ∈ cell, Readable e) :
      ReadAs (moreCellWords (cells.map .group)).flatten (moreCellPieces cells) := by
    induction cells with
    | nil => exact nil
    | cons cell cells ih =>
      rw [List.map_cons, moreCellWords, List.cons_append, List.flatten_cons, List.flatten_append]
      exact cellBreak.append ((items (readable cell List.mem_cons_self)).append
        (ih fun c hc => readable c (List.mem_cons_of_mem cell hc)))
  cases cells with
  | nil => exact nil
  | cons cell cells =>
    rw [List.map_cons, rowWords, List.flatten_append]
    exact (items (readable cell List.mem_cons_self)).append
      (more fun c hc => readable c (List.mem_cons_of_mem cell hc))

theorem rows {rows : List (List (List Expr))}
    (readable : ∀ row ∈ rows, ∀ cell ∈ row, ∀ e ∈ cell, Readable e) :
    ReadAs (rowsWords (rows.map (·.map .group))).flatten (rowsPieces rows) := by
  have more {rows : List (List (List Expr))}
      (readable : ∀ row ∈ rows, ∀ cell ∈ row, ∀ e ∈ cell, Readable e) :
      ReadAs (moreRowWords (rows.map (·.map .group))).flatten (moreRowPieces rows) := by
    induction rows with
    | nil => exact nil
    | cons cells rows ih =>
      rw [List.map_cons, moreRowWords, List.cons_append, List.flatten_cons, List.flatten_append]
      exact rowBreak.append ((row (readable cells List.mem_cons_self)).append
        (ih fun r hr => readable r (List.mem_cons_of_mem cells hr)))
  cases rows with
  | nil => exact nil
  | cons cells rows =>
    rw [List.map_cons, rowsWords, List.flatten_append]
    exact (row (readable cells List.mem_cons_self)).append
      (more fun r hr => readable r (List.mem_cons_of_mem cells hr))

end ReadAs

/-- An environment is read back from its name, its column specification and its rows. -/
theorem reading_environment_words {name : String} {rows : List (List (List Expr))}
    (chars : ∀ c ∈ name.toList, isEnvironmentNameChar c = true) (ne : rows ≠ []) (cells : ∀ row ∈ rows, row ≠ [])
    (last : dropBlankLastRow rows = rows)
    (readable : ∀ row ∈ rows, ∀ cell ∈ row, ∀ e ∈ cell, Readable e) (rest : List Token) :
    reading (nucleus ((Nucleus.environment name (rows.map (·.map .group))).words.flatten ++ rest)) =
      ((Nucleus.environment name (rows.map (·.map .group))).plain, rest) := by
  have tokens : (Nucleus.environment name (rows.map (·.map .group))).words.flatten ++ rest =
      .command "begin" :: .openGroup :: (name.toList.map nameToken ++ .closeGroup ::
        ((columnWords name).flatten ++ ((rowsWords (rows.map (·.map .group))).flatten ++
          .command "end" :: .openGroup :: (name.toList.map nameToken ++ .closeGroup :: rest)))) := by
    simp [Nucleus.words, nameWord]
  have begins : role "begin" = .beginEnvironment := by decide
  have ends : endsScripts (.command "end" :: .openGroup ::
      (name.toList.map nameToken ++ .closeGroup :: rest)) = true :=
    show (!limitModifiers.contains "end") = true by decide
  have opening := reading_environmentName chars ((columnWords name).flatten ++
    ((rowsWords (rows.map (·.map .group))).flatten ++
      .command "end" :: .openGroup :: (name.toList.map nameToken ++ .closeGroup :: rest)))
  have opened := congrArg Prod.fst opening
  simp only [reading] at opened
  rw [tokens, reading_nucleus_command, reading_command_begin _ begins, reading_environment, opened,
    opening, afterColumns_columnWords, (ReadAs.rows readable).body _ ends, reading_body_end,
    reading_environmentName chars, List.append_nil, rowsOfPieces_rowsPieces ne cells, last]

/-! ## Items -/

/-- An item begins with a token that begins items, and with a closing bracket only if it is one. -/
theorem Shape.first {P : Expr → Prop} {n : Nucleus} (shape : Shape P n) :
    ∃ token more, n.words.flatten = token :: more ∧ startsItem token = true ∧
      (token = .operator ']' → n = .atom .operator [']']) := by
  have named {name : String} (ends : role name ≠ .endEnvironment) (silent : role name ≠ .silent) :=
    And.intro (startsItem_command ends silent)
      (show Token.command name = .operator ']' → n = .atom .operator [']'] by simp)
  cases shape with
  | group h => exact ⟨.openGroup, _, by rw [Nucleus.words]; rfl, rfl, by simp⟩
  | frac => exact ⟨.command "frac", _, by rw [Nucleus.words]; rfl, named (by decide) (by decide)⟩
  | sqrt => exact ⟨.command "sqrt", _, by rw [Nucleus.words]; rfl, named (by decide) (by decide)⟩
  | radical => exact ⟨.command "sqrt", _, by rw [Nucleus.words]; rfl, named (by decide) (by decide)⟩
  | @nary glyph name command h _ =>
    exact ⟨.command name, [], by rw [Nucleus.words, naryWords, command]; rfl,
      named (by simp [h]) (by simp [h])⟩
  | @atom kind value h =>
    rw [Nucleus.words]
    generalize atomWords kind value = ws at h
    cases h with
    | number => exact ⟨.number value, [], rfl, rfl, by simp⟩
    | @operator c => exact ⟨.operator c, [], rfl, rfl, by simp⟩
    | @relation c name h => exact ⟨.command name, [], rfl, named (by simp [h]) (by simp [h])⟩
    | @symbol c name h => exact ⟨.command name, [], rfl, named (by simp [h]) (by simp [h])⟩
    | @literal c _ ne => exact ⟨.literal c, [], rfl, by simpa [startsItem] using ne, by simp⟩
    | @unknown name h => exact ⟨.command name, [], rfl, named (by simp [h]) (by simp [h])⟩
    | @delimiter c => exact ⟨.command "left", _, rfl, named (by decide) (by decide)⟩
  | environment =>
    exact ⟨.command "begin", _, by rw [Nucleus.words]; rfl, named (by decide) (by decide)⟩
  | empty => exact ⟨.command ",", [], by rw [Nucleus.words]; rfl, by decide, by simp⟩

theorem Shape.startsScript {P : Expr → Prop} {n : Nucleus} (shape : Shape P n) (rest : List Token) :
    startsScript (n.words.flatten ++ rest) = false := by
  obtain ⟨token, more, text, starts, _⟩ := shape.first
  rw [text]
  cases token <;> simp_all [startsItem, Latex.startsScript]

theorem Spelled.reads {kind : AtomKind} {value : Text} {ws : List Word}
    (spelled : Spelled kind value ws) (rest : List Token) :
    reading (nucleus (ws.flatten ++ rest)) = (.atom kind value, rest) := by
  cases spelled with
  | number => exact reading_nucleus_number _ rest
  | operator => exact reading_nucleus_operator _ rest
  | relation h => exact (reading_nucleus_command _ rest).trans (reading_command_relation rest h)
  | symbol h => exact (reading_nucleus_command _ rest).trans (reading_command_symbol rest h)
  | literal _ ne =>
    refine (reading_nucleus_literal _ rest).trans ?_
    rw [if_neg ne]
  | unknown h isName =>
    refine (reading_nucleus_command _ rest).trans ?_
    rw [reading_command_unknown rest h, if_neg isName.ne]
  | @delimiter c _ ne =>
    have left : role "left" = .delimiter := by decide
    have glyph : ¬(delimiterGlyph (.operator c) = [] ∨ delimiterGlyph (.operator c) = ['.']) := by
      simpa [delimiterGlyph, Token.text] using ne
    refine (reading_nucleus_command _ (.operator c :: rest)).trans ?_
    rw [reading_command_delimiter rest left, if_neg glyph]
    rfl

/-- A nucleus is read back if the items in it are. -/
theorem Shape.reads {n : Nucleus} (shape : Shape Readable n) (rest : List Token) :
    reading (nucleus (n.words.flatten ++ rest)) = (n.plain, rest) := by
  have root : role "sqrt" = .root := by decide
  cases shape with
  | @group items h =>
    rw [words_nucleus_group]
    exact reading_nucleus_group h rest
  | @frac num den hnum hden =>
    have fraction : role "frac" = .fraction := by decide
    rw [flatten_words_frac, reading_nucleus_command, reading_command_fraction _ fraction,
      reading_nucleus_group hnum, reading_nucleus_group hden]
  | @sqrt base h =>
    have plain : startsDegree ((Expr.group base).words.flatten ++ rest) = false := by
      rw [flatten_words_group]
      rfl
    rw [flatten_words_sqrt, reading_nucleus_command, reading_command_root _ root, reading_root_plain _ plain,
      reading_nucleus_group h]
  | @radical base degree hbase hdegree plain =>
    have other : ∀ e ∈ degree, ∀ token more, e.words.flatten = token :: more →
        decide (token = .operator ']') = false := by
      intro e he token more text
      obtain ⟨token', _, text', _, bracket⟩ := (hdegree e he).first
      obtain ⟨rfl, _⟩ := List.cons.inj (text.symm.trans text')
      rw [decide_eq_false_iff_not]
      intro close
      simpa [plain e he] using bracket close
    have inside : reading (sequence (· = .operator ']') ((wordsAll degree).flatten ++
        .operator ']' :: ((Expr.group base).words.flatten ++ rest))) =
          (degree, .operator ']' :: ((Expr.group base).words.flatten ++ rest)) :=
      reading_sequence (.inr (by simp)) rfl hdegree other
    rw [flatten_words_radical, reading_nucleus_command, reading_command_root _ root, reading_root_degree _ rfl,
      List.drop_one, List.tail_cons, inside, skipDegreeEnd, reading_nucleus_group hbase]
  | @nary glyph name command h _ =>
    have tokens : (Nucleus.nary [glyph]).words.flatten ++ rest = .command name :: rest := by
      simp [Nucleus.words, naryWords, command]
    rw [tokens, reading_nucleus_command, reading_command_bigOperator _ h]
  | @atom kind value h =>
    rw [Nucleus.words]
    exact h.reads rest
  | environment chars ne cells last h => exact reading_environment_words chars ne cells last h rest
  | empty =>
    have silent : role "," = .silent := by decide
    have tokens : Nucleus.empty.words.flatten ++ rest = .command "," :: rest := by
      simp [Nucleus.words]
    rw [tokens, reading_nucleus_command, reading_command_silent _ silent]
    rfl

/-- Every item that can be written is read back, before anything that does not go on with
scripts. -/
theorem inherited_readable : Inherited Readable := by
  intro n sub sup shape hsub hsup
  obtain ⟨token, more, text, starts, bracket⟩ := shape.first
  have words := flatten_words_mk n (sub.map .group) (sup.map .group)
  constructor
  · refine ⟨token, _, by rw [words, text, List.cons_append], starts, ?_⟩
    intro close
    rw [bracket close]
    rfl
  · intro rest ends
    rw [words, List.append_assoc, List.append_assoc, reading_expression (shape.startsScript _), shape.reads]
    exact reading_scripts n hsub hsup ends

/-! ## Whole formulas -/

/-- Items side by side are read back one by one. -/
theorem formulaItems_wordsAll {items : List Expr} (readable : ∀ e ∈ items, Readable e) :
    formulaItems (wordsAll items).flatten = items := by
  induction items with
  | nil => exact formulaItems_nil
  | cons e items ih =>
    have rest := fun i hi => readable i (List.mem_cons_of_mem e hi)
    obtain ⟨token, more, text, go⟩ := (readable e List.mem_cons_self).ne_closeGroup
    have ends : endsScripts (wordsAll items).flatten = true := by
      simpa using endsScripts_wordsAll rest (show endsScripts [] = true from rfl)
    have reads := (readable e List.mem_cons_self).reads _ ends
    rw [text, List.cons_append] at reads
    rw [wordsAll, List.flatten_append, text, List.cons_append, formulaItems_cons _ go, reads, ih rest]

/-- Items that have been written are read back as a whole formula. -/
theorem parse_print_items {items : List Expr} (canonical : allCanonical items = true) :
    parse (Nucleus.root items).plain.print = (Nucleus.root items).plain := by
  rw [parse, tokenize_print canonical, parseTokens,
    formulaItems_wordsAll (forall_items inherited_readable items canonical)]

/-- Reading a formula that has been written gives it back. -/
theorem parse_print {e : Expr} (h : e.isFormula = true) : parse e.print = e := by
  obtain ⟨n, sub, sup⟩ := e
  match n, sub, sup, h with
  | .root items, none, none, h => exact parse_print_items (by simpa [Expr.isFormula] using h)

/-- A root with scripts, whose degree has a bracket inside braces and whose base is an array with an
empty cell in its last row. -/
def rootOfArray : Expr :=
  (Nucleus.root [
    .mk (.radical
      (.group [(Nucleus.environment "array" [
        [.group [.atom .text ['x']]],
        [.group [], .group [.mk (.nary ['∑']) (some (.group [.atom .number "1.5".toList])) none]]]).plain])
      (some (.group [.group [.atom .operator [']']]])))
      (some (.group [.atom .symbol ['α']])) (some (.group [])),
    .atom .delimiter ['('],
    .atom .text "sin".toList]).plain

theorem parse_print_rootOfArray :
    rootOfArray.isFormula = true ∧
      rootOfArray.print =
        ("\\sqrt [ \x7b ] \x7d ] \x7b \\begin\x7barray\x7d \x7b\x7d x \\\\ & \\sum _ \x7b 1.5 \x7d " ++
          "\\end\x7barray\x7d \x7d _ \x7b \\alpha \x7d ^ \x7b \x7d \\left ( \\sin").toList ∧
      parse rootOfArray.print = rootOfArray :=
  ⟨by decide, by decide, parse_print (by decide)⟩

end OfficeFormula.Latex
