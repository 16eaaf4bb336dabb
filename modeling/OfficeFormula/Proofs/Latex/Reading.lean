import OfficeFormula.Latex.Parser

/-!
# What the parser reads

The functions of the grammar carry bounds, so that every loop is seen to end. `reading` forgets the
bounds and keeps what has been read and the tokens that are left. Each function then has an equation
for each shape of its tokens; proofs about the grammar use these and never open the functions.
-/

namespace OfficeFormula.Latex

-- The equations of the grammar, made here once for all lemmas below.
attribute [local simp] expression nucleus argument group sequence scripts command root columnSpec
  environment body formulaItems

/-- What has been read, and the tokens that are left. -/
def reading {α : Type} {n : Nat} {ts : List Token} (r : α × Left n ts) : α × List Token :=
  (r.1, r.2.rest)

/-- What is left is shorter by at least the tokens that are sure to be taken. -/
theorem length_reading {α : Type} {n : Nat} {ts : List Token} (r : α × Left n ts) :
    (reading r).2.length + n ≤ ts.length :=
  r.2.bound

/-- An item is a nucleus with the scripts that follow it. -/
theorem reading_expression {ts : List Token} (h : startsScript ts = false) :
    reading (expression ts) = reading (scripts (reading (nucleus ts)).1 (reading (nucleus ts)).2) := by
  rw [expression, dif_neg (by simp [h])]
  rfl

/-- A script without a base stands on an empty one. -/
theorem reading_expression_of_script {ts : List Token} (h : startsScript ts = true) :
    reading (expression ts) = reading (scripts .empty ts) := by
  rw [expression, dif_pos h]
  rfl

/-! ## One item -/

theorem reading_nucleus_nil : reading (nucleus []) = (.empty, []) := by
  rw [nucleus]
  rfl

/-- A brace that closes nothing here is left to the caller. -/
theorem reading_nucleus_closeGroup (more : List Token) :
    reading (nucleus (.closeGroup :: more)) = (.empty, .closeGroup :: more) := by
  rw [nucleus]
  rfl

theorem reading_nucleus_subscript (more : List Token) :
    reading (nucleus (.subscript :: more)) = (.empty, .subscript :: more) := by
  rw [nucleus]
  rfl

theorem reading_nucleus_superscript (more : List Token) :
    reading (nucleus (.superscript :: more)) = (.empty, .superscript :: more) := by
  rw [nucleus]
  rfl

theorem reading_nucleus_openGroup (more : List Token) :
    reading (nucleus (.openGroup :: more)) = reading (group more) := by
  rw [nucleus]
  rfl

theorem reading_nucleus_command (name : String) (more : List Token) :
    reading (nucleus (.command name :: more)) = reading (command name more) := by
  rw [nucleus]
  rfl

theorem reading_nucleus_number (digits : Text) (more : List Token) :
    reading (nucleus (.number digits :: more)) = (.atom .number digits, more) := by
  rw [nucleus]
  rfl

theorem reading_nucleus_operator (c : Char) (more : List Token) :
    reading (nucleus (.operator c :: more)) = (.atom .operator [c], more) := by
  rw [nucleus]
  rfl

/-- A character stands for itself, but for the mark between cells. -/
theorem reading_nucleus_literal (c : Char) (more : List Token) :
    reading (nucleus (.literal c :: more)) = (if c = '&' then .empty else .atom .text [c], more) := by
  rw [nucleus]
  rfl

/-- An argument is one nucleus, without scripts. -/
theorem reading_argument (ts : List Token) : reading (argument ts) = reading (nucleus ts) := by
  rw [argument]
  rfl

/-! ## Sequences -/

/-- A group ends at the next closing brace, or with the tokens. -/
theorem reading_group (ts : List Token) :
    reading (group ts) =
      (.group (reading (sequence (fun _ => false) ts)).1,
        skipClose (reading (sequence (fun _ => false) ts)).2) := by
  rw [group]
  rfl

theorem reading_sequence_nil (stop : Token → Bool) : reading (sequence stop []) = ([], []) := by
  rw [sequence]
  rfl

/-- A sequence ends before a closing brace and before the tokens it is told to stop at. -/
theorem reading_sequence_stop {stop : Token → Bool} {token : Token} (more : List Token)
    (h : token = .closeGroup ∨ stop token = true) :
    reading (sequence stop (token :: more)) = ([], token :: more) := by
  rw [sequence, dif_pos h]
  rfl

/-- Before any other token it goes on. -/
theorem reading_sequence_cons {stop : Token → Bool} {token : Token} (more : List Token)
    (h : ¬(token = .closeGroup ∨ stop token = true)) :
    reading (sequence stop (token :: more)) =
      ((reading (expression (token :: more))).1 ::
          (reading (sequence stop (reading (expression (token :: more))).2)).1,
        (reading (sequence stop (reading (expression (token :: more))).2)).2) := by
  rw [sequence, dif_neg h]
  rfl

/-! ## Scripts -/

/-- A subscript takes the place of the one the expression had. -/
theorem reading_scripts_subscript (e : Expr) (more : List Token) :
    reading (scripts e (.subscript :: more)) =
      reading (scripts (e.withSub (reading (nucleus more)).1) (reading (nucleus more)).2) := by
  rw [scripts, ← reading_argument]
  rfl

theorem reading_scripts_superscript (e : Expr) (more : List Token) :
    reading (scripts e (.superscript :: more)) =
      reading (scripts (e.withSup (reading (nucleus more)).1) (reading (nucleus more)).2) := by
  rw [scripts, ← reading_argument]
  rfl

theorem reading_scripts_modifier (e : Expr) {name : String} (h : limitModifiers.contains name = true)
    (more : List Token) : reading (scripts e (.command name :: more)) = reading (scripts e more) := by
  rw [scripts, if_pos h]
  rfl

/-- The tokens do not go on with scripts. -/
def endsScripts : List Token → Bool
  | .subscript :: _ | .superscript :: _ => false
  | .command name :: _ => !limitModifiers.contains name
  | _ => true

/-- Any token but a script mark or a modifier ends the scripts. -/
theorem reading_scripts_end (e : Expr) {ts : List Token} (h : endsScripts ts = true) :
    reading (scripts e ts) = (e, ts) := by
  cases ts with
  | nil => rw [scripts]; rfl
  | cons token more =>
    cases token with
    | command name =>
      have other : ¬limitModifiers.contains name = true := by simpa [endsScripts] using h
      rw [scripts, if_neg other]
      rfl
    | subscript => simp [endsScripts] at h
    | superscript => simp [endsScripts] at h
    | literal c => rw [scripts]; rfl
    | number digits => rw [scripts]; rfl
    | operator c => rw [scripts]; rfl
    | openGroup => rw [scripts]; rfl
    | closeGroup => rw [scripts]; rfl

/-! ## Commands -/

section Commands

variable {name : String} (ts : List Token)

theorem reading_command_fraction (h : role name = .fraction) :
    reading (command name ts) =
      ((Nucleus.frac (reading (nucleus ts)).1 (reading (nucleus (reading (nucleus ts)).2)).1).plain,
        (reading (nucleus (reading (nucleus ts)).2)).2) := by
  rw [command, h, ← reading_argument, ← reading_argument]
  rfl

theorem reading_command_root (h : role name = .root) :
    reading (command name ts) = reading (root ts) := by
  rw [command, h]

theorem reading_command_delimiter_nil (h : role name = .delimiter) :
    reading (command name []) = (.empty, []) := by
  rw [command, h]
  rfl

/-- A delimiter command takes one token whatever it is, and a period is no delimiter. -/
theorem reading_command_delimiter (h : role name = .delimiter) (token : Token) :
    reading (command name (token :: ts)) =
      (if delimiterGlyph token = [] ∨ delimiterGlyph token = ['.'] then .empty
        else .atom .delimiter (delimiterGlyph token), ts) := by
  rw [command, h]
  rfl

theorem reading_command_begin (h : role name = .beginEnvironment) :
    reading (command name ts) = reading (environment ts) := by
  rw [command, h]

/-- An end without a beginning is passed over with its name. -/
theorem reading_command_end (h : role name = .endEnvironment) :
    reading (command name ts) = (.empty, (reading (environmentName ts)).2) := by
  rw [command, h]
  rfl

theorem reading_command_bigOperator {glyph : Char} (h : role name = .bigOperator glyph) :
    reading (command name ts) = ((Nucleus.nary [glyph]).plain, ts) := by
  rw [command, h]
  rfl

theorem reading_command_symbol {glyph : Char} (h : role name = .symbol glyph) :
    reading (command name ts) = (.atom .symbol [glyph], ts) := by
  rw [command, h]
  rfl

theorem reading_command_relation {glyph : Char} (h : role name = .relation glyph) :
    reading (command name ts) = (.atom .operator [glyph], ts) := by
  rw [command, h]
  rfl

theorem reading_command_font (h : role name = .font) :
    reading (command name ts) = reading (nucleus ts) := by
  rw [command, h, ← reading_argument]

theorem reading_command_wideSpace (h : role name = .wideSpace) :
    reading (command name ts) = (.atom .text [' '], ts) := by
  rw [command, h]
  rfl

theorem reading_command_silent (h : role name = .silent) :
    reading (command name ts) = (.empty, ts) := by
  rw [command, h]
  rfl

/-- A command that is not known gives its name as text. -/
theorem reading_command_unknown (h : role name = .unknown) :
    reading (command name ts) = (if name = "" then .empty else .atom .text name.toList, ts) := by
  rw [command, h]
  rfl

/-- The degree ends at the first bracket of its level, and the base is the argument behind it. -/
theorem reading_root_degree (h : startsDegree ts = true) :
    reading (root ts) =
      ((Nucleus.radical
          (reading (nucleus (skipDegreeEnd
            (reading (sequence (· = .operator ']') (ts.drop 1))).2))).1
          (some (.group (reading (sequence (· = .operator ']') (ts.drop 1))).1))).plain,
        (reading (nucleus (skipDegreeEnd
          (reading (sequence (· = .operator ']') (ts.drop 1))).2))).2) := by
  rw [root, if_pos h, ← reading_argument]
  rfl

theorem reading_root_plain (h : startsDegree ts = false) :
    reading (root ts) = ((Nucleus.sqrt (reading (nucleus ts)).1).plain, (reading (nucleus ts)).2) := by
  rw [root, if_neg (by simp [h]), ← reading_argument]
  rfl

end Commands

/-! ## Environments -/

/-- What is left after the column specification of an environment. -/
def afterColumns (name : String) (ts : List Token) : List Token :=
  if columnSpecEnvironments.contains name && startsGroup ts then (reading (nucleus ts)).2 else ts

theorem rest_columnSpec (name : String) (ts : List Token) :
    (columnSpec name ts).rest = afterColumns name ts := by
  rw [columnSpec, afterColumns, ← reading_argument]
  split
  · rfl
  · rfl

/-- An environment drops its last row if nothing is in it, and each cell is a group. -/
theorem reading_environment (ts : List Token) :
    reading (environment ts) =
      ((Nucleus.environment (environmentName ts).1
          ((dropBlankLastRow (rowsOfPieces (reading (body
            (afterColumns (environmentName ts).1 (reading (environmentName ts)).2))).1)).map
            (·.map .group))).plain,
        (reading (body (afterColumns (environmentName ts).1 (reading (environmentName ts)).2))).2) := by
  rw [environment, ← rest_columnSpec]
  rfl

theorem reading_body_nil : reading (body []) = ([], []) := by
  rw [body]
  rfl

/-- A closing brace ends the body as the end of the tokens does. -/
theorem reading_body_closeGroup (more : List Token) :
    reading (body (.closeGroup :: more)) = ([], .closeGroup :: more) := by
  rw [body, dif_pos rfl]
  rfl

theorem reading_body_end (more : List Token) :
    reading (body (.command "end" :: more)) = ([], (reading (environmentName more)).2) := by
  rw [body, dif_neg (by simp), if_pos rfl]
  rfl

theorem reading_body_cellBreak (more : List Token) :
    reading (body (.literal '&' :: more)) =
      (.cellBreak :: (reading (body more)).1, (reading (body more)).2) := by
  rw [body, dif_neg (by simp), if_neg (by simp), if_pos rfl]
  rfl

theorem reading_body_rowBreak (more : List Token) :
    reading (body (.command rowBreakName :: more)) =
      (.rowBreak :: (reading (body more)).1, (reading (body more)).2) := by
  rw [body, dif_neg (by simp), if_neg (by decide), if_neg (by simp), if_pos rfl]
  rfl

/-- What is no end and no break is an item of the cell. -/
theorem reading_body_item {token : Token} (more : List Token) (close : token ≠ .closeGroup)
    (ends : token ≠ .command "end") (cell : token ≠ .literal '&')
    (row : token ≠ .command rowBreakName) :
    reading (body (token :: more)) =
      (.item (reading (expression (token :: more))).1 ::
          (reading (body (reading (expression (token :: more))).2)).1,
        (reading (body (reading (expression (token :: more))).2)).2) := by
  rw [body, dif_neg close, if_neg ends, if_neg cell, if_neg row]
  rfl

/-! ## A whole formula -/

theorem formulaItems_nil : formulaItems [] = [] := by
  rw [formulaItems]

/-- Of a whole formula, a closing brace too many is dropped. -/
theorem formulaItems_closeGroup (more : List Token) :
    formulaItems (.closeGroup :: more) = formulaItems more := by
  rw [formulaItems, dif_pos rfl]

theorem formulaItems_cons {token : Token} (more : List Token) (h : token ≠ .closeGroup) :
    formulaItems (token :: more) =
      (reading (expression (token :: more))).1 ::
        formulaItems (reading (expression (token :: more))).2 := by
  rw [formulaItems, dif_neg h]
  rfl

end OfficeFormula.Latex
