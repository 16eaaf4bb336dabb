import OfficeFormula.Proofs.Latex.MaximalMunch
import OfficeFormula.Proofs.Latex.Progress

/-!
# What the parser builds

Not every expression is read from tokens. What is read has no hole in it, a big operator is one of the
glyphs of the commands for them, an environment has rows and cells, and an atom has characters, which
are those of the tokens or stand for a command (`Expr.Built`). Every function of the grammar keeps to
that, whatever the tokens are, as long as none of them is empty.
-/

namespace OfficeFormula.Latex

mutual

/-- An expression such as the parser builds, with characters that satisfy `A` in its atoms. -/
inductive Expr.Built (A : Char → Prop) : Expr → Prop where
  | mk {n : Nucleus} {sub sup : Option Expr} (nucleus : n.Built A) (hsub : ∀ e ∈ sub, e.Built A)
      (hsup : ∀ e ∈ sup, e.Built A) : Expr.Built A (.mk n sub sup)

inductive Nucleus.Built (A : Char → Prop) : Nucleus → Prop where
  | group {items : List Expr} (h : ∀ e ∈ items, e.Built A) : Nucleus.Built A (.group items)
  | frac {num den : Expr} (hnum : num.Built A) (hden : den.Built A) : Nucleus.Built A (.frac num den)
  | sqrt {base : Expr} (h : base.Built A) : Nucleus.Built A (.sqrt base)
  | radical {base : Expr} {degree : Option Expr} (hbase : base.Built A)
      (hdegree : ∀ e ∈ degree, e.Built A) : Nucleus.Built A (.radical base degree)
  | nary {name : String} {glyph : Char} (h : role name = .bigOperator glyph) :
      Nucleus.Built A (.nary [glyph])
  | atom (kind : AtomKind) {value : Text} (ne : value ≠ []) (h : ∀ c ∈ value, A c) :
      Nucleus.Built A (.atom kind value)
  | environment (name : String) {rows : List (List Expr)} (ne : rows ≠ []) (cells : ∀ row ∈ rows, row ≠ [])
      (h : ∀ row ∈ rows, ∀ cell ∈ row, cell.Built A) : Nucleus.Built A (.environment name rows)
  | empty : Nucleus.Built A .empty

end

section Parts

variable {A : Char → Prop}

theorem Nucleus.Built.plain {n : Nucleus} (h : n.Built A) : n.plain.Built A := .mk h (by simp) (by simp)

/-- A subscript takes the place of the one before it, and nothing else. -/
theorem Expr.Built.withSub {e arg : Expr} (h : e.Built A) (harg : arg.Built A) :
    (e.withSub arg).Built A := by
  obtain ⟨nucleus, _, hsup⟩ := h
  exact .mk nucleus (by simpa using harg) hsup

theorem Expr.Built.withSup {e arg : Expr} (h : e.Built A) (harg : arg.Built A) :
    (e.withSup arg).Built A := by
  obtain ⟨nucleus, hsub, _⟩ := h
  exact .mk nucleus hsub (by simpa using harg)

end Parts

/-! ## The characters of atoms -/

/-- The characters that commands stand for, and that of a wide space. -/
def commandGlyphs : List Char := (bigOperators ++ symbols ++ relations).map Prod.snd ++ [' ']

/-- A character that a command stands for comes from one of the tables. -/
theorem mem_commandGlyphs_of_role {name : String} {glyph : Char}
    (h : role name = .bigOperator glyph ∨ role name = .symbol glyph ∨ role name = .relation glyph) :
    glyph ∈ commandGlyphs := by
  have listed {table : List (String × Char)} (found : table.lookup name = some glyph) :
      glyph ∈ table.map Prod.snd := by
    obtain ⟨before, after, rfl, _⟩ := List.lookup_eq_some_iff.1 found
    simp
  simp only [commandGlyphs, List.map_append, List.mem_append]
  unfold role at h
  repeat' split at h
  all_goals simp only [reduceCtorEq, Role.bigOperator.injEq, Role.symbol.injEq, Role.relation.injEq,
    or_false, false_or] at h
  · next found => exact .inl (.inl (.inl (listed (h ▸ found))))
  · next found => exact .inl (.inl (.inr (listed (h ▸ found))))
  · next found => exact .inl (.inr (listed (h ▸ found)))

/-- All that the characters of atoms are taken from satisfies `A`, and there is something to take. -/
structure Supplied (A : Char → Prop) (ts : List Token) : Prop where
  tokens : ∀ token ∈ ts, ∀ c ∈ token.text, A c
  texts : ∀ token ∈ ts, token.text ≠ []
  glyphs : ∀ c ∈ commandGlyphs, A c

namespace Supplied

variable {A : Char → Prop} {ts rest : List Token} {token : Token}

/-- What is left of the tokens is made of the same characters. -/
theorem suffix (supplied : Supplied A ts) (h : rest <:+ ts) : Supplied A rest :=
  ⟨fun token htoken => supplied.tokens token (h.subset htoken),
    fun token htoken => supplied.texts token (h.subset htoken), supplied.glyphs⟩

theorem tail (supplied : Supplied A (token :: ts)) : Supplied A ts := supplied.suffix (List.suffix_cons _ _)

theorem head (supplied : Supplied A (token :: ts)) : ∀ c ∈ token.text, A c :=
  supplied.tokens token List.mem_cons_self

/-- The name of a command is part of its token. -/
theorem commandName {name : String} (supplied : Supplied A (.command name :: ts)) :
    ∀ c ∈ name.toList, A c := by
  intro c hc
  exact supplied.head c (List.mem_cons_of_mem _ hc)

/-- A delimiter is the token's own text, or nothing. -/
theorem delimiterGlyph (supplied : Supplied A (token :: ts)) :
    ∀ c ∈ Latex.delimiterGlyph token, A c := by
  have glyph {name : String} {glyph : Char} (h : role name = .symbol glyph ∨ role name = .relation glyph) :
      A glyph :=
    supplied.glyphs glyph (mem_commandGlyphs_of_role (.inr h))
  unfold Latex.delimiterGlyph
  split
  · split
    · next h => simpa using glyph (.inl h)
    · next h => simpa using glyph (.inr h)
    · exact supplied.commandName
  · exact supplied.head

end Supplied

/-! ## Rows and cells -/

/-- Rows with cells in each of them, all of whose items satisfy `P`. -/
structure Filled (P : Expr → Prop) (rows : List (List (List Expr))) : Prop where
  ne : rows ≠ []
  cells : ∀ row ∈ rows, row ≠ []
  items : ∀ row ∈ rows, ∀ cell ∈ row, ∀ e ∈ cell, P e

section Rows

variable {P : Expr → Prop}

/-- Cells hold the items that were read and no others. -/
theorem filled_rowsOfPieces {ps : List Piece} (h : ∀ e, .item e ∈ ps → P e) :
    Filled P (rowsOfPieces ps) := by
  induction ps with
  | nil => exact ⟨by simp [rowsOfPieces], by simp [rowsOfPieces], by simp [rowsOfPieces]⟩
  | cons p ps ih =>
    obtain ⟨ne, cells, items⟩ := ih fun e he => h e (List.mem_cons_of_mem p he)
    obtain ⟨row, rows, hrows⟩ := List.exists_cons_of_ne_nil ne
    rw [hrows] at cells items
    obtain ⟨cell, more, rfl⟩ := List.exists_cons_of_ne_nil (cells row List.mem_cons_self)
    simp only [List.forall_mem_cons] at cells items
    cases p with
    | item e =>
      have here := h e List.mem_cons_self
      simp only [rowsOfPieces, hrows]
      exact ⟨by simp, by simpa using cells.2, by
        simp only [List.forall_mem_cons]
        exact ⟨⟨⟨here, items.1.1⟩, items.1.2⟩, items.2⟩⟩
    | cellBreak =>
      simp only [rowsOfPieces, hrows]
      exact ⟨by simp, by simpa using cells.2, by
        simp only [List.forall_mem_cons]
        exact ⟨⟨by simp, items.1⟩, items.2⟩⟩
    | rowBreak =>
      simp only [rowsOfPieces, hrows]
      exact ⟨by simp, by simpa using cells.2, by
        simp only [List.forall_mem_cons]
        exact ⟨by simp, items⟩⟩

theorem Filled.dropBlankLastRow {rows : List (List (List Expr))} (filled : Filled P rows) :
    Filled P (dropBlankLastRow rows) := by
  rw [Latex.dropBlankLastRow]
  split
  · next h =>
    have inside := (List.dropLast_sublist rows).subset
    refine ⟨?_, fun row hrow => filled.cells row (inside hrow), fun row hrow => filled.items row (inside hrow)⟩
    intro empty
    have length := congrArg List.length empty
    simp only [Bool.and_eq_true, decide_eq_true_eq] at h
    rw [List.length_dropLast, List.length_nil] at length
    omega
  · exact filled

end Rows

/-- An environment whose cells hold built items is built, each cell as a group. -/
theorem Filled.built {A : Char → Prop} {rows : List (List (List Expr))} (filled : Filled (Expr.Built A) rows)
    (name : String) : (Nucleus.environment name (rows.map (·.map .group))).Built A := by
  refine .environment name (by simpa using filled.ne) ?_ ?_
  · intro row hrow
    obtain ⟨cells, hcells, rfl⟩ := List.mem_map.1 hrow
    simpa using filled.cells cells hcells
  · intro row hrow cell hcell
    obtain ⟨cells, hcells, rfl⟩ := List.mem_map.1 hrow
    obtain ⟨items, hitems, rfl⟩ := List.mem_map.1 hcell
    exact Nucleus.Built.plain (.group (filled.items cells hcells items hitems))

/-! ## The grammar -/

section Grammar

variable {A : Char → Prop}

mutual

/-- What an item is built of comes from the tokens it is read from. -/
theorem built_expression (ts : List Token) (supplied : Supplied A ts) :
    (reading (expression ts)).1.Built A := by
  by_cases h : startsScript ts = true
  · rw [reading_expression_of_script h]
    exact built_scripts .empty ts (Nucleus.Built.plain .empty) supplied
  · rw [reading_expression (by simpa using h)]
    have left := length_reading (nucleus ts)
    exact built_scripts _ _ (built_nucleus ts supplied) (supplied.suffix (suffix_nucleus ts))
termination_by 5 * ts.length + 1
decreasing_by
  all_goals omega

theorem built_nucleus (ts : List Token) (supplied : Supplied A ts) :
    (reading (nucleus ts)).1.Built A := by
  match ts with
  | [] => rw [reading_nucleus_nil]; exact Nucleus.Built.plain .empty
  | .closeGroup :: more => rw [reading_nucleus_closeGroup]; exact Nucleus.Built.plain .empty
  | .subscript :: more => rw [reading_nucleus_subscript]; exact Nucleus.Built.plain .empty
  | .superscript :: more => rw [reading_nucleus_superscript]; exact Nucleus.Built.plain .empty
  | .openGroup :: more => rw [reading_nucleus_openGroup]; exact built_group more supplied.tail
  | .command name :: more => rw [reading_nucleus_command]; exact built_command name more supplied
  | .number digits :: more =>
    rw [reading_nucleus_number]
    exact Nucleus.Built.plain (.atom _ (supplied.texts _ List.mem_cons_self) supplied.head)
  | .operator c :: more =>
    rw [reading_nucleus_operator]
    exact Nucleus.Built.plain (.atom _ (by simp) supplied.head)
  | .literal c :: more =>
    rw [reading_nucleus_literal]
    split
    · exact Nucleus.Built.plain .empty
    · exact Nucleus.Built.plain (.atom _ (by simp) supplied.head)
termination_by 5 * ts.length
decreasing_by
  all_goals (simp only [List.length_cons]; omega)

theorem built_group (ts : List Token) (supplied : Supplied A ts) : (reading (group ts)).1.Built A := by
  rw [reading_group]
  exact Nucleus.Built.plain (.group (built_sequence (fun _ => false) ts supplied))
termination_by 5 * ts.length + 3

theorem built_sequence (stop : Token → Bool) (ts : List Token) (supplied : Supplied A ts) :
    ∀ e ∈ (reading (sequence stop ts)).1, e.Built A := by
  match ts with
  | [] =>
    rw [reading_sequence_nil]
    simp
  | token :: more =>
    by_cases h : token = .closeGroup ∨ stop token = true
    · rw [reading_sequence_stop more h]
      simp
    · have left := length_reading (expression (token :: more))
      have step : itemStep (token :: more) = 1 := itemStep_cons fun close => h (.inl close)
      rw [reading_sequence_cons more h, List.forall_mem_cons]
      exact ⟨built_expression (token :: more) supplied,
        built_sequence stop _ (supplied.suffix (suffix_expression _))⟩
termination_by 5 * ts.length + 2
decreasing_by
  all_goals omega

theorem built_scripts (e : Expr) (ts : List Token) (h : e.Built A) (supplied : Supplied A ts) :
    (reading (scripts e ts)).1.Built A := by
  by_cases ends : endsScripts ts = true
  · rw [reading_scripts_end e ends]
    exact h
  · match ts with
    | .subscript :: more =>
      have left := length_reading (nucleus more)
      rw [reading_scripts_subscript]
      exact built_scripts _ _ (h.withSub (built_nucleus more supplied.tail))
        (supplied.tail.suffix (suffix_nucleus more))
    | .superscript :: more =>
      have left := length_reading (nucleus more)
      rw [reading_scripts_superscript]
      exact built_scripts _ _ (h.withSup (built_nucleus more supplied.tail))
        (supplied.tail.suffix (suffix_nucleus more))
    | .command name :: more =>
      rw [reading_scripts_modifier e (by simpa [endsScripts] using ends)]
      exact built_scripts e more h supplied.tail
    | [] | .literal _ :: _ | .number _ :: _ | .operator _ :: _ | .openGroup :: _ | .closeGroup :: _ =>
      exact absurd rfl ends
termination_by 5 * ts.length
decreasing_by
  all_goals (simp only [List.length_cons]; omega)

theorem built_command (name : String) (ts : List Token) (supplied : Supplied A (.command name :: ts)) :
    (reading (command name ts)).1.Built A := by
  cases h : role name with
  | fraction =>
    have left := length_reading (nucleus ts)
    rw [reading_command_fraction ts h]
    exact Nucleus.Built.plain (.frac (built_nucleus ts supplied.tail)
      (built_nucleus _ (supplied.tail.suffix (suffix_nucleus ts))))
  | root => rw [reading_command_root ts h]; exact built_root ts supplied.tail
  | delimiter =>
    cases ts with
    | nil => rw [reading_command_delimiter_nil h]; exact Nucleus.Built.plain .empty
    | cons token more =>
      rw [reading_command_delimiter more h]
      split
      · exact Nucleus.Built.plain .empty
      · next shown =>
        have ne : delimiterGlyph token ≠ [] := fun none => shown (.inl none)
        exact Nucleus.Built.plain (.atom _ ne supplied.tail.delimiterGlyph)
  | beginEnvironment => rw [reading_command_begin ts h]; exact built_environment ts supplied.tail
  | endEnvironment => rw [reading_command_end ts h]; exact Nucleus.Built.plain .empty
  | bigOperator glyph => rw [reading_command_bigOperator ts h]; exact Nucleus.Built.plain (.nary h)
  | symbol glyph =>
    have known := supplied.glyphs glyph (mem_commandGlyphs_of_role (.inr (.inl h)))
    rw [reading_command_symbol ts h]
    exact Nucleus.Built.plain (.atom _ (by simp) (by simpa using known))
  | relation glyph =>
    have known := supplied.glyphs glyph (mem_commandGlyphs_of_role (.inr (.inr h)))
    rw [reading_command_relation ts h]
    exact Nucleus.Built.plain (.atom _ (by simp) (by simpa using known))
  | font => rw [reading_command_font ts h]; exact built_nucleus ts supplied.tail
  | silent => rw [reading_command_silent ts h]; exact Nucleus.Built.plain .empty
  | wideSpace =>
    have blank := supplied.glyphs ' ' (by simp [commandGlyphs])
    rw [reading_command_wideSpace ts h]
    exact Nucleus.Built.plain (.atom _ (by simp) (by simpa using blank))
  | unknown =>
    rw [reading_command_unknown ts h]
    split
    · exact Nucleus.Built.plain .empty
    · next named => exact Nucleus.Built.plain (.atom _ (by simpa using named) supplied.commandName)
termination_by 5 * ts.length + 4
decreasing_by
  all_goals omega

theorem built_root (ts : List Token) (supplied : Supplied A ts) : (reading (root ts)).1.Built A := by
  by_cases h : startsDegree ts = true
  · rw [reading_root_degree ts h]
    have dropped : (ts.drop 1).length ≤ ts.length := by simp
    have left := length_reading (sequence (· = .operator ']') (ts.drop 1))
    have skipped := length_skipDegreeEnd_le (reading (sequence (· = .operator ']') (ts.drop 1))).2
    have inside : Supplied A (ts.drop 1) := supplied.suffix (List.drop_suffix 1 ts)
    have after := inside.suffix ((suffix_skipDegreeEnd _).trans (suffix_sequence (· = .operator ']') _))
    refine Nucleus.Built.plain (.radical (built_nucleus _ after) ?_)
    simp only [Option.mem_some_iff, forall_eq']
    exact Nucleus.Built.plain (.group (built_sequence _ _ inside))
  · rw [reading_root_plain ts (by simpa using h)]
    exact Nucleus.Built.plain (.sqrt (built_nucleus ts supplied))
termination_by 5 * ts.length + 3
decreasing_by
  all_goals omega

theorem built_environment (ts : List Token) (supplied : Supplied A ts) :
    (reading (environment ts)).1.Built A := by
  have named := length_reading (environmentName ts)
  have columns : (afterColumns (environmentName ts).1 (reading (environmentName ts)).2).length ≤
      (reading (environmentName ts)).2.length :=
    (suffix_afterColumns _ _).length_le
  have inside := supplied.suffix ((suffix_afterColumns (environmentName ts).1 _).trans
    (suffix_environmentName ts))
  rw [reading_environment]
  exact Nucleus.Built.plain
    ((filled_rowsOfPieces (built_body _ inside)).dropBlankLastRow.built (environmentName ts).1)
termination_by 5 * ts.length + 3
decreasing_by
  all_goals omega

/-- So do the items in the cells of an environment. -/
theorem built_body (ts : List Token) (supplied : Supplied A ts) :
    ∀ e, .item e ∈ (reading (body ts)).1 → e.Built A := by
  match ts with
  | [] =>
    rw [reading_body_nil]
    simp
  | token :: more =>
    by_cases close : token = .closeGroup
    · rw [close, reading_body_closeGroup]
      simp
    by_cases ends : token = .command "end"
    · rw [ends, reading_body_end]
      simp
    by_cases cell : token = .literal '&'
    · rw [cell, reading_body_cellBreak]
      simpa using built_body more supplied.tail
    by_cases row : token = .command rowBreakName
    · rw [row, reading_body_rowBreak]
      simpa using built_body more supplied.tail
    · have left := length_reading (expression (token :: more))
      have step : itemStep (token :: more) = 1 := itemStep_cons close
      rw [reading_body_item more close ends cell row]
      intro e he
      rcases List.mem_cons.1 he with he | he
      · rw [Piece.item.inj he]
        exact built_expression (token :: more) supplied
      · exact built_body _ (supplied.suffix (suffix_expression _)) e he
termination_by 5 * ts.length + 2
decreasing_by
  all_goals (simp only [List.length_cons] at *; omega)

end

/-- What is read from a formula is such as the parser builds. -/
theorem built_formulaItems (ts : List Token) (supplied : Supplied A ts) :
    ∀ e ∈ formulaItems ts, e.Built A := by
  match ts with
  | [] =>
    rw [formulaItems_nil]
    simp
  | token :: more =>
    by_cases close : token = .closeGroup
    · rw [close, formulaItems_closeGroup]
      exact built_formulaItems more supplied.tail
    · have left := length_reading (expression (token :: more))
      have step : itemStep (token :: more) = 1 := itemStep_cons close
      rw [formulaItems_cons more close, List.forall_mem_cons]
      exact ⟨built_expression (token :: more) supplied,
        built_formulaItems _ (supplied.suffix (suffix_expression _))⟩
termination_by ts.length
decreasing_by
  all_goals (simp only [List.length_cons] at *; omega)

end Grammar

end OfficeFormula.Latex
