import OfficeFormula.Proofs.Latex.Reading

/-!
# How deep a formula is read

The parser counts how many items stand inside one another in what it reads. The count is that of the reading
and not of the expression, so it is computed along the grammar: each function has an equation for its depth,
as it has one for what it reads.
-/

namespace OfficeFormula.Latex

/-- How many items stood inside one another in what has been read. -/
def depth {α : Type} {n : Nat} {ts : List Token} (r : α × Left n ts) : Nat := r.2.depth

/-! ## The grammar -/

/-- An item is as deep as its nucleus or the deepest of its scripts. -/
theorem depth_expression {ts : List Token} (h : startsScript ts = false) :
    depth (expression ts) =
      max (depth (nucleus ts)) (depth (scripts (reading (nucleus ts)).1 (reading (nucleus ts)).2)) := by
  rw [expression, dif_neg (by simp [h])]
  rfl

theorem depth_expression_of_script {ts : List Token} (h : startsScript ts = true) :
    depth (expression ts) = depth (scripts .empty ts) := by
  rw [expression, dif_pos h]
  rfl

theorem depth_argument (ts : List Token) : depth (argument ts) = depth (nucleus ts) := by
  rw [argument]
  rfl

theorem depth_nucleus_nil : depth (nucleus []) = 0 := by
  rw [nucleus]
  rfl

theorem depth_nucleus_closeGroup (more : List Token) : depth (nucleus (.closeGroup :: more)) = 0 := by
  rw [nucleus]
  rfl

theorem depth_nucleus_subscript (more : List Token) : depth (nucleus (.subscript :: more)) = 0 := by
  rw [nucleus]
  rfl

theorem depth_nucleus_superscript (more : List Token) : depth (nucleus (.superscript :: more)) = 0 := by
  rw [nucleus]
  rfl

theorem depth_nucleus_number (digits : Text) (more : List Token) :
    depth (nucleus (.number digits :: more)) = 0 := by
  rw [nucleus]
  rfl

theorem depth_nucleus_operator (c : Char) (more : List Token) :
    depth (nucleus (.operator c :: more)) = 0 := by
  rw [nucleus]
  rfl

theorem depth_nucleus_literal (c : Char) (more : List Token) :
    depth (nucleus (.literal c :: more)) = 0 := by
  rw [nucleus]
  rfl

/-- A group is one deeper than what is in it. -/
theorem depth_nucleus_openGroup (more : List Token) :
    depth (nucleus (.openGroup :: more)) = depth (sequence (fun _ => false) more) + 1 := by
  rw [nucleus, group]
  rfl

/-- A command is one deeper than what it takes. -/
theorem depth_nucleus_command (name : String) (more : List Token) :
    depth (nucleus (.command name :: more)) = depth (command name more) + 1 := by
  rw [nucleus]
  rfl

theorem depth_sequence_nil (stop : Token → Bool) : depth (sequence stop []) = 0 := by
  rw [sequence]
  rfl

theorem depth_sequence_stop {stop : Token → Bool} {token : Token} (more : List Token)
    (h : token = .closeGroup ∨ stop token = true) : depth (sequence stop (token :: more)) = 0 := by
  rw [sequence, dif_pos h]
  rfl

/-- Items side by side are as deep as the deepest of them. -/
theorem depth_sequence_cons {stop : Token → Bool} {token : Token} (more : List Token)
    (h : ¬(token = .closeGroup ∨ stop token = true)) :
    depth (sequence stop (token :: more)) =
      max (depth (expression (token :: more)))
        (depth (sequence stop (reading (expression (token :: more))).2)) := by
  rw [sequence, dif_neg h]
  rfl

/-- A script counts with its argument, also if a later one takes its place. -/
theorem depth_scripts_subscript (e : Expr) (more : List Token) :
    depth (scripts e (.subscript :: more)) =
      max (depth (nucleus more))
        (depth (scripts (e.withSub (reading (nucleus more)).1) (reading (nucleus more)).2)) := by
  rw [scripts, ← reading_argument, ← depth_argument]
  rfl

theorem depth_scripts_superscript (e : Expr) (more : List Token) :
    depth (scripts e (.superscript :: more)) =
      max (depth (nucleus more))
        (depth (scripts (e.withSup (reading (nucleus more)).1) (reading (nucleus more)).2)) := by
  rw [scripts, ← reading_argument, ← depth_argument]
  rfl

/-- A modifier of limits is passed over. -/
theorem depth_scripts_modifier (e : Expr) {name : String} (h : limitModifiers.contains name = true)
    (more : List Token) : depth (scripts e (.command name :: more)) = depth (scripts e more) := by
  rw [scripts, if_pos h]
  rfl

/-- Where no script follows nothing is read. -/
theorem depth_scripts_end (e : Expr) {ts : List Token} (h : endsScripts ts = true) :
    depth (scripts e ts) = 0 := by
  cases ts with
  | nil => rw [scripts]; rfl
  | cons token more =>
    cases token with
    | command name =>
      have other : ¬limitModifiers.contains name = true := by simpa [endsScripts] using h
      rw [scripts, if_neg other]
      rfl
    | subscript => simp [endsScripts] at h
    | superscript => simp [endsScripts] at h
    | literal c => rw [scripts]; rfl
    | number digits => rw [scripts]; rfl
    | operator c => rw [scripts]; rfl
    | openGroup => rw [scripts]; rfl
    | closeGroup => rw [scripts]; rfl

section Commands

variable {name : String} (ts : List Token)

/-- A fraction reads its two arguments one after the other. -/
theorem depth_command_fraction (h : role name = .fraction) :
    depth (command name ts) =
      max (depth (nucleus ts)) (depth (nucleus (reading (nucleus ts)).2)) := by
  rw [command, h, ← reading_argument, ← depth_argument, ← depth_argument]
  rfl

theorem depth_command_root (h : role name = .root) : depth (command name ts) = depth (root ts) := by
  rw [command, h]

theorem depth_command_delimiter (h : role name = .delimiter) : depth (command name ts) = 0 := by
  rw [command, h]
  cases ts <;> rfl

theorem depth_command_begin (h : role name = .beginEnvironment) :
    depth (command name ts) = depth (environment ts) := by
  rw [command, h]

/-- Names are read character by character, with nothing inside one another. -/
theorem depth_environmentName : depth (environmentName ts) = 0 := by
  unfold environmentName
  split <;> rfl

theorem depth_command_end (h : role name = .endEnvironment) : depth (command name ts) = 0 := by
  rw [command, h]
  exact depth_environmentName ts

theorem depth_command_bigOperator {glyph : Char} (h : role name = .bigOperator glyph) :
    depth (command name ts) = 0 := by
  rw [command, h]
  rfl

theorem depth_command_symbol {glyph : Char} (h : role name = .symbol glyph) :
    depth (command name ts) = 0 := by
  rw [command, h]
  rfl

theorem depth_command_relation {glyph : Char} (h : role name = .relation glyph) :
    depth (command name ts) = 0 := by
  rw [command, h]
  rfl

/-- A font command adds nothing to its argument. -/
theorem depth_command_font (h : role name = .font) : depth (command name ts) = depth (nucleus ts) := by
  rw [command, h, ← depth_argument]

theorem depth_command_silent (h : role name = .silent) : depth (command name ts) = 0 := by
  rw [command, h]
  rfl

theorem depth_command_wideSpace (h : role name = .wideSpace) : depth (command name ts) = 0 := by
  rw [command, h]
  rfl

theorem depth_command_unknown (h : role name = .unknown) : depth (command name ts) = 0 := by
  rw [command, h]
  rfl

/-- A radical is as deep as its degree or its base. -/
theorem depth_root_degree (h : startsDegree ts = true) :
    depth (root ts) =
      max (depth (sequence (· = .operator ']') (ts.drop 1)))
        (depth (nucleus (skipDegreeEnd (reading (sequence (· = .operator ']') (ts.drop 1))).2))) := by
  rw [root, if_pos h, ← depth_argument]
  rfl

theorem depth_root_plain (h : startsDegree ts = false) : depth (root ts) = depth (nucleus ts) := by
  rw [root, if_neg (by simp [h]), ← depth_argument]
  rfl

end Commands

/-- How deep the column specification of an environment is read. -/
def columnsDepth (name : String) (ts : List Token) : Nat :=
  if columnSpecEnvironments.contains name && startsGroup ts then depth (nucleus ts) else 0

/-- An environment counts its column specification too, though nothing comes of it. -/
theorem depth_environment (ts : List Token) :
    depth (environment ts) =
      max (columnsDepth (environmentName ts).1 (reading (environmentName ts)).2)
        (depth (body (afterColumns (environmentName ts).1 (reading (environmentName ts)).2))) := by
  have columns (name : String) (ts : List Token) : (columnSpec name ts).depth = columnsDepth name ts := by
    rw [columnSpec, columnsDepth, ← depth_argument]
    split
    · rfl
    · rfl
  rw [environment, ← rest_columnSpec, ← columns]
  rfl

theorem depth_body_nil : depth (body []) = 0 := by
  rw [body]
  rfl

theorem depth_body_closeGroup (more : List Token) : depth (body (.closeGroup :: more)) = 0 := by
  rw [body, dif_pos rfl]
  rfl

theorem depth_body_end (more : List Token) : depth (body (.command "end" :: more)) = 0 := by
  rw [body, dif_neg (by simp), if_pos rfl]
  rfl

theorem depth_body_cellBreak (more : List Token) :
    depth (body (.literal '&' :: more)) = depth (body more) := by
  rw [body, dif_neg (by simp), if_neg (by simp), if_pos rfl]
  rfl

/-- Breaks between cells and rows put nothing inside. -/
theorem depth_body_rowBreak (more : List Token) :
    depth (body (.command rowBreakName :: more)) = depth (body more) := by
  rw [body, dif_neg (by simp), if_neg (by decide), if_neg (by simp), if_pos rfl]
  rfl

/-- The items of all the cells stand side by side. -/
theorem depth_body_item {token : Token} (more : List Token) (close : token ≠ .closeGroup)
    (ends : token ≠ .command "end") (cell : token ≠ .literal '&')
    (row : token ≠ .command rowBreakName) :
    depth (body (token :: more)) =
      max (depth (expression (token :: more)))
        (depth (body (reading (expression (token :: more))).2)) := by
  rw [body, dif_neg close, if_neg ends, if_neg cell, if_neg row]
  rfl

theorem nesting_closeGroup (more : List Token) : nesting (.closeGroup :: more) = nesting more := by
  rw [nesting, dif_pos rfl]

/-- A formula is as deep as the deepest of its items. -/
theorem nesting_cons {token : Token} (more : List Token) (h : token ≠ .closeGroup) :
    nesting (token :: more) =
      max (depth (expression (token :: more))) (nesting (reading (expression (token :: more))).2) := by
  rw [nesting, dif_neg h]
  rfl

end OfficeFormula.Latex
