import OfficeFormula.Proofs.Latex.Reading

/-!
# The parser goes forward

What a function of the grammar leaves is the end of what it was given, so that a place in the list of
tokens, the cursor, moves forward only. An expression takes at least one token unless it stands at a
closing brace, and each loop of the grammar stops there, skips the brace or has a mark of a script to
take. So every loop comes to an end, on whatever tokens, and the loop over a whole formula does so at
the end of the tokens (`advances`).
-/

namespace OfficeFormula.Latex

/-! ## What is left is the end of what was given -/

theorem suffix_skipClose (ts : List Token) : skipClose ts <:+ ts := by
  unfold skipClose
  split
  · exact List.suffix_cons _ _
  · exact List.suffix_rfl

theorem suffix_skipDegreeEnd (ts : List Token) : skipDegreeEnd ts <:+ ts := by
  unfold skipDegreeEnd
  split
  · exact List.suffix_cons _ _
  · exact List.suffix_rfl

theorem suffix_environmentName (ts : List Token) : (reading (environmentName ts)).2 <:+ ts := by
  unfold environmentName
  split
  · exact (List.drop_suffix _ _).trans (List.suffix_cons _ _)
  · exact List.suffix_rfl

/-- Nothing has been taken. -/
theorem suffix_of_reading_self {α : Type} {n : Nat} {ts : List Token} {r : α × Left n ts} {x : α}
    (h : reading r = (x, ts)) : (reading r).2 <:+ ts :=
  ⟨[], congrArg Prod.snd h⟩

mutual

/-- Each function of the grammar takes tokens from the front only. -/
theorem suffix_expression (ts : List Token) : (reading (expression ts)).2 <:+ ts := by
  by_cases h : startsScript ts = true
  · rw [reading_expression_of_script h]
    exact suffix_scripts .empty ts
  · rw [reading_expression (by simpa using h)]
    have left := length_reading (nucleus ts)
    exact (suffix_scripts _ _).trans (suffix_nucleus ts)
termination_by 5 * ts.length + 1
decreasing_by
  all_goals omega

theorem suffix_nucleus (ts : List Token) : (reading (nucleus ts)).2 <:+ ts := by
  match ts with
  | [] => exact suffix_of_reading_self reading_nucleus_nil
  | .closeGroup :: more => exact suffix_of_reading_self (reading_nucleus_closeGroup more)
  | .subscript :: more => exact suffix_of_reading_self (reading_nucleus_subscript more)
  | .superscript :: more => exact suffix_of_reading_self (reading_nucleus_superscript more)
  | .openGroup :: more =>
    rw [reading_nucleus_openGroup, reading_group]
    have inside := suffix_sequence (fun _ => false) more
    exact ((suffix_skipClose _).trans inside).trans (List.suffix_cons _ more)
  | .command name :: more =>
    rw [reading_nucleus_command]
    exact (suffix_command name more).trans (List.suffix_cons _ more)
  | .number digits :: more => rw [reading_nucleus_number]; exact List.suffix_cons _ more
  | .operator c :: more => rw [reading_nucleus_operator]; exact List.suffix_cons _ more
  | .literal c :: more => rw [reading_nucleus_literal]; exact List.suffix_cons _ more
termination_by 5 * ts.length
decreasing_by
  all_goals (simp only [List.length_cons]; omega)

theorem suffix_sequence (stop : Token → Bool) (ts : List Token) :
    (reading (sequence stop ts)).2 <:+ ts := by
  match ts with
  | [] => exact suffix_of_reading_self (reading_sequence_nil stop)
  | token :: more =>
    by_cases h : token = .closeGroup ∨ stop token = true
    · exact suffix_of_reading_self (reading_sequence_stop more h)
    · have left := length_reading (expression (token :: more))
      have step : itemStep (token :: more) = 1 := itemStep_cons fun close => h (.inl close)
      rw [reading_sequence_cons more h]
      exact (suffix_sequence stop _).trans (suffix_expression (token :: more))
termination_by 5 * ts.length + 2
decreasing_by
  all_goals omega

theorem suffix_scripts (e : Expr) (ts : List Token) : (reading (scripts e ts)).2 <:+ ts := by
  by_cases ends : endsScripts ts = true
  · exact suffix_of_reading_self (reading_scripts_end e ends)
  · match ts with
    | .subscript :: more =>
      have left := length_reading (nucleus more)
      rw [reading_scripts_subscript]
      exact ((suffix_scripts _ _).trans (suffix_nucleus more)).trans (List.suffix_cons _ more)
    | .superscript :: more =>
      have left := length_reading (nucleus more)
      rw [reading_scripts_superscript]
      exact ((suffix_scripts _ _).trans (suffix_nucleus more)).trans (List.suffix_cons _ more)
    | .command name :: more =>
      rw [reading_scripts_modifier e (by simpa [endsScripts] using ends)]
      exact (suffix_scripts e more).trans (List.suffix_cons _ more)
    | [] | .literal _ :: _ | .number _ :: _ | .operator _ :: _ | .openGroup :: _ | .closeGroup :: _ =>
      exact absurd rfl ends
termination_by 5 * ts.length
decreasing_by
  all_goals (simp only [List.length_cons]; omega)

theorem suffix_command (name : String) (ts : List Token) : (reading (command name ts)).2 <:+ ts := by
  cases h : role name with
  | fraction =>
    have left := length_reading (nucleus ts)
    rw [reading_command_fraction ts h]
    exact (suffix_nucleus _).trans (suffix_nucleus ts)
  | root => rw [reading_command_root ts h]; exact suffix_root ts
  | delimiter =>
    cases ts with
    | nil => exact suffix_of_reading_self (reading_command_delimiter_nil h)
    | cons token more => rw [reading_command_delimiter more h]; exact List.suffix_cons token more
  | beginEnvironment => rw [reading_command_begin ts h]; exact suffix_environment ts
  | endEnvironment => rw [reading_command_end ts h]; exact suffix_environmentName ts
  | bigOperator glyph => exact suffix_of_reading_self (reading_command_bigOperator ts h)
  | symbol glyph => exact suffix_of_reading_self (reading_command_symbol ts h)
  | relation glyph => exact suffix_of_reading_self (reading_command_relation ts h)
  | font => rw [reading_command_font ts h]; exact suffix_nucleus ts
  | silent => exact suffix_of_reading_self (reading_command_silent ts h)
  | wideSpace => exact suffix_of_reading_self (reading_command_wideSpace ts h)
  | unknown => exact suffix_of_reading_self (reading_command_unknown ts h)
termination_by 5 * ts.length + 4
decreasing_by
  all_goals omega

theorem suffix_root (ts : List Token) : (reading (root ts)).2 <:+ ts := by
  by_cases h : startsDegree ts = true
  · rw [reading_root_degree ts h]
    have dropped : (ts.drop 1).length ≤ ts.length := by simp
    have left := length_reading (sequence (· = .operator ']') (ts.drop 1))
    have skipped := length_skipDegreeEnd_le (reading (sequence (· = .operator ']') (ts.drop 1))).2
    have degree := (suffix_sequence (· = .operator ']') (ts.drop 1)).trans (List.drop_suffix 1 ts)
    exact (suffix_nucleus _).trans ((suffix_skipDegreeEnd _).trans degree)
  · rw [reading_root_plain ts (by simpa using h)]
    exact suffix_nucleus ts
termination_by 5 * ts.length + 3
decreasing_by
  all_goals omega

theorem suffix_environment (ts : List Token) : (reading (environment ts)).2 <:+ ts := by
  have named := length_reading (environmentName ts)
  have columns := suffix_afterColumns (environmentName ts).1 (reading (environmentName ts)).2
  have shorter := columns.length_le
  rw [reading_environment]
  exact ((suffix_body _).trans columns).trans (suffix_environmentName ts)
termination_by 5 * ts.length + 3
decreasing_by
  all_goals omega

theorem suffix_afterColumns (name : String) (ts : List Token) : afterColumns name ts <:+ ts := by
  unfold afterColumns
  split
  · exact suffix_nucleus ts
  · exact List.suffix_rfl
termination_by 5 * ts.length + 1

/-- A body leaves what stands behind the name that ends it. -/
theorem suffix_body (ts : List Token) : (reading (body ts)).2 <:+ ts := by
  match ts with
  | [] => exact suffix_of_reading_self reading_body_nil
  | token :: more =>
    by_cases close : token = .closeGroup
    · subst close
      exact suffix_of_reading_self (reading_body_closeGroup more)
    by_cases ends : token = .command "end"
    · rw [ends, reading_body_end]
      exact (suffix_environmentName more).trans (List.suffix_cons _ more)
    by_cases cell : token = .literal '&'
    · rw [cell, reading_body_cellBreak]
      exact (suffix_body more).trans (List.suffix_cons _ more)
    by_cases row : token = .command rowBreakName
    · rw [row, reading_body_rowBreak]
      exact (suffix_body more).trans (List.suffix_cons _ more)
    · have left := length_reading (expression (token :: more))
      have step : itemStep (token :: more) = 1 := itemStep_cons close
      rw [reading_body_item more close ends cell row]
      exact (suffix_body _).trans (suffix_expression (token :: more))
termination_by 5 * ts.length + 2
decreasing_by
  all_goals (simp only [List.length_cons] at *; omega)

end

/-! ## The cursor -/

/-- From behind the first `p` tokens the cursor has moved to behind the first `q`, and `rest` is left. -/
structure Moves (ts : List Token) (p q : Nat) (rest : List Token) : Prop where
  forward : p ≤ q
  within : q ≤ ts.length
  left : rest = ts.drop q

/-- A cursor has moved on to where the end that is left begins. -/
theorem exists_moves {ts rest : List Token} {p : Nat} (within : p ≤ ts.length)
    (suffix : rest <:+ ts.drop p) : ∃ q, Moves ts p q rest ∧ rest.length + q = ts.length := by
  have shorter := suffix.length_le
  rw [List.length_drop] at shorter
  refine ⟨ts.length - rest.length, ⟨by omega, by omega, ?_⟩, by omega⟩
  exact List.suffix_iff_eq_drop.1 (suffix.trans (List.drop_suffix p ts))

/-- An expression takes a token unless it stands at a closing brace. -/
theorem exists_moves_expression {ts : List Token} {p : Nat} {token : Token}
    (here : ts[p]? = some token) (other : token ≠ .closeGroup) :
    ∃ q, p < q ∧ Moves ts p q (reading (expression (ts.drop p))).2 := by
  have inside : p < ts.length := (List.getElem?_eq_some_iff.1 here).1
  have first : ts.drop p = token :: ts.drop (p + 1) := by
    rw [List.drop_eq_getElem_cons inside]
    simp [(List.getElem?_eq_some_iff.1 here).2]
  obtain ⟨q, moves, length⟩ := exists_moves (Nat.le_of_lt inside) (suffix_expression (ts.drop p))
  have taken := length_reading (expression (ts.drop p))
  have one : itemStep (ts.drop p) = 1 := by rw [first, itemStep_cons other]
  have dropped : (ts.drop p).length = ts.length - p := List.length_drop
  exact ⟨q, by omega, moves⟩

/-! ## Loops -/

/-- What a round of a loop comes to: the loop is over, or goes on. -/
inductive Round (σ : Type) where
  | over (s : σ)
  | on (s : σ)

/-- A loop ends: finitely many rounds lead from the one state to the other. -/
inductive Ends {σ : Type} (round : σ → Round σ) : σ → σ → Prop where
  | over {s t : σ} (h : round s = .over t) : Ends round s t
  | on {s s' t : σ} (h : round s = .on s') (more : Ends round s' t) : Ends round s t

/-- A round of the loop over a sequence: one more expression, before a closing brace, a token that `stop`
accepts, or the end. -/
def sequenceRound (stop : Token → Bool) : List Expr × List Token → Round (List Expr × List Token)
  | (items, []) => .over (items, [])
  | (items, token :: more) =>
    if token = .closeGroup ∨ stop token = true then .over (items, token :: more)
    else
      .on (items ++ [(reading (expression (token :: more))).1],
        (reading (expression (token :: more))).2)

/-- A round of the loop over scripts: one more script, or a command that may stand between them. -/
def scriptsRound : Expr × List Token → Round (Expr × List Token)
  | (e, .subscript :: more) =>
    .on (e.withSub (reading (argument more)).1, (reading (argument more)).2)
  | (e, .superscript :: more) =>
    .on (e.withSup (reading (argument more)).1, (reading (argument more)).2)
  | (e, .command name :: more) =>
    if limitModifiers.contains name then .on (e, more) else .over (e, .command name :: more)
  | (e, ts) => .over (e, ts)

/-- A round of the loop over the body of an environment: its end, a break, or one more expression. -/
def bodyRound : List Piece × List Token → Round (List Piece × List Token)
  | (ps, []) => .over (ps, [])
  | (ps, token :: more) =>
    if token = .closeGroup then .over (ps, token :: more)
    else if token = .command "end" then .over (ps, (reading (environmentName more)).2)
    else if token = .literal '&' then .on (ps ++ [.cellBreak], more)
    else if token = .command rowBreakName then .on (ps ++ [.rowBreak], more)
    else
      .on (ps ++ [.item (reading (expression (token :: more))).1],
        (reading (expression (token :: more))).2)

/-- A round of the loop over a whole formula: a surplus closing brace, or one more expression. -/
def formulaRound : List Expr × List Token → Round (List Expr × List Token)
  | (items, []) => .over (items, [])
  | (items, token :: more) =>
    if token = .closeGroup then .on (items, more)
    else
      .on (items ++ [(reading (expression (token :: more))).1],
        (reading (expression (token :: more))).2)

/-- A sequence is read in rounds, each adding one item to those before. -/
theorem ends_sequence (stop : Token → Bool) (items : List Expr) (ts : List Token) :
    Ends (sequenceRound stop) (items, ts)
      (items ++ (reading (sequence stop ts)).1, (reading (sequence stop ts)).2) := by
  match ts with
  | [] =>
    rw [reading_sequence_nil, List.append_nil]
    exact .over rfl
  | token :: more =>
    by_cases h : token = .closeGroup ∨ stop token = true
    · rw [reading_sequence_stop more h, List.append_nil]
      exact .over (by rw [sequenceRound, if_pos h])
    · have left := length_reading (expression (token :: more))
      have step : itemStep (token :: more) = 1 := itemStep_cons fun close => h (.inl close)
      have rounds := ends_sequence stop (items ++ [(reading (expression (token :: more))).1])
        (reading (expression (token :: more))).2
      rw [List.append_assoc, List.singleton_append] at rounds
      rw [reading_sequence_cons more h]
      exact .on (by rw [sequenceRound, if_neg h]) rounds
termination_by ts.length
decreasing_by omega

/-- Scripts are read in rounds, each replacing the expression. -/
theorem ends_scripts (e : Expr) (ts : List Token) :
    Ends scriptsRound (e, ts) (reading (scripts e ts)) := by
  by_cases ends : endsScripts ts = true
  · rw [reading_scripts_end e ends]
    refine .over ?_
    match ts with
    | .command name :: more => exact if_neg (by simpa [endsScripts] using ends)
    | .subscript :: _ | .superscript :: _ => simp [endsScripts] at ends
    | [] | .literal _ :: _ | .number _ :: _ | .operator _ :: _ | .openGroup :: _ | .closeGroup :: _ => rfl
  · match ts with
    | .subscript :: more =>
      have left := length_reading (argument more)
      rw [reading_scripts_subscript, ← reading_argument]
      exact .on rfl (ends_scripts (e.withSub (reading (argument more)).1) (reading (argument more)).2)
    | .superscript :: more =>
      have left := length_reading (argument more)
      rw [reading_scripts_superscript, ← reading_argument]
      exact .on rfl (ends_scripts (e.withSup (reading (argument more)).1) (reading (argument more)).2)
    | .command name :: more =>
      have modifier : limitModifiers.contains name = true := by simpa [endsScripts] using ends
      rw [reading_scripts_modifier e modifier]
      exact .on (if_pos modifier) (ends_scripts e more)
    | [] | .literal _ :: _ | .number _ :: _ | .operator _ :: _ | .openGroup :: _ | .closeGroup :: _ =>
      exact absurd rfl ends
termination_by ts.length
decreasing_by
  all_goals (simp only [List.length_cons]; omega)

/-- A body is read in rounds, each adding one piece. -/
theorem ends_body (ps : List Piece) (ts : List Token) :
    Ends bodyRound (ps, ts) (ps ++ (reading (body ts)).1, (reading (body ts)).2) := by
  match ts with
  | [] =>
    rw [reading_body_nil, List.append_nil]
    exact .over rfl
  | token :: more =>
    by_cases close : token = .closeGroup
    · rw [close, reading_body_closeGroup, List.append_nil]
      exact .over (by rw [bodyRound, if_pos rfl])
    by_cases ends : token = .command "end"
    · rw [ends, reading_body_end, List.append_nil]
      exact .over (by rw [bodyRound, if_neg (by simp), if_pos rfl])
    by_cases cell : token = .literal '&'
    · rw [cell, reading_body_cellBreak]
      refine .on (by rw [bodyRound, if_neg (by simp), if_neg (by simp), if_pos rfl]) ?_
      have rounds := ends_body (ps ++ [.cellBreak]) more
      rwa [List.append_assoc, List.singleton_append] at rounds
    by_cases row : token = .command rowBreakName
    · rw [row, reading_body_rowBreak]
      refine .on (by rw [bodyRound, if_neg (by simp), if_neg (by decide), if_neg (by simp), if_pos rfl]) ?_
      have rounds := ends_body (ps ++ [.rowBreak]) more
      rwa [List.append_assoc, List.singleton_append] at rounds
    · have left := length_reading (expression (token :: more))
      have step : itemStep (token :: more) = 1 := itemStep_cons close
      have rounds := ends_body (ps ++ [.item (reading (expression (token :: more))).1])
        (reading (expression (token :: more))).2
      rw [List.append_assoc, List.singleton_append] at rounds
      rw [reading_body_item more close ends cell row]
      exact .on (by rw [bodyRound, if_neg close, if_neg ends, if_neg cell, if_neg row]) rounds
termination_by ts.length
decreasing_by
  all_goals (simp only [List.length_cons] at *; omega)

/-- A formula is read in rounds until no token is left. -/
theorem ends_formula (items : List Expr) (ts : List Token) :
    Ends formulaRound (items, ts) (items ++ formulaItems ts, []) := by
  match ts with
  | [] =>
    rw [formulaItems_nil, List.append_nil]
    exact .over rfl
  | token :: more =>
    by_cases close : token = .closeGroup
    · rw [close, formulaItems_closeGroup]
      exact .on (by rw [formulaRound, if_pos rfl]) (ends_formula items more)
    · have left := length_reading (expression (token :: more))
      have step : itemStep (token :: more) = 1 := itemStep_cons close
      have rounds := ends_formula (items ++ [(reading (expression (token :: more))).1])
        (reading (expression (token :: more))).2
      rw [List.append_assoc, List.singleton_append] at rounds
      rw [formulaItems_cons more close]
      exact .on (by rw [formulaRound, if_neg close]) rounds
termination_by ts.length
decreasing_by
  all_goals (simp only [List.length_cons] at *; omega)

/-! ## All together -/

/-- The parser goes forward through the tokens, and through all of them. -/
structure Advances (ts : List Token) : Prop where
  /-- An expression takes a token unless it stands at a closing brace. -/
  expression : ∀ p token, ts[p]? = some token → token ≠ .closeGroup →
    ∃ q, p < q ∧ Moves ts p q (reading (expression (ts.drop p))).2
  nucleus : ∀ p ≤ ts.length, ∃ q, Moves ts p q (reading (nucleus (ts.drop p))).2
  argument : ∀ p ≤ ts.length, ∃ q, Moves ts p q (reading (argument (ts.drop p))).2
  scripts : ∀ e, ∀ p ≤ ts.length, ∃ q, Moves ts p q (reading (scripts e (ts.drop p))).2
  command : ∀ name, ∀ p ≤ ts.length, ∃ q, Moves ts p q (reading (command name (ts.drop p))).2
  /-- The loops over sequences, scripts and bodies end from every place. -/
  sequenceLoop : ∀ stop p, Ends (sequenceRound stop) ([], ts.drop p) (reading (sequence stop (ts.drop p)))
  scriptsLoop : ∀ e p, Ends scriptsRound (e, ts.drop p) (reading (Latex.scripts e (ts.drop p)))
  bodyLoop : ∀ p, Ends bodyRound ([], ts.drop p) (reading (body (ts.drop p)))
  /-- The loop over the formula ends when no token is left. -/
  formulaLoop : Ends formulaRound ([], ts) (formulaItems ts, [])

/-- The parser goes forward through all tokens, whatever they are. -/
theorem advances (ts : List Token) : Advances ts where
  expression _ _ here other := exists_moves_expression here other
  nucleus p within := by
    obtain ⟨q, moves, _⟩ := exists_moves within (suffix_nucleus (ts.drop p))
    exact ⟨q, moves⟩
  argument p within := by
    obtain ⟨q, moves, _⟩ := exists_moves within (suffix_nucleus (ts.drop p))
    rw [reading_argument]
    exact ⟨q, moves⟩
  scripts e p within := by
    obtain ⟨q, moves, _⟩ := exists_moves within (suffix_scripts e (ts.drop p))
    exact ⟨q, moves⟩
  command name p within := by
    obtain ⟨q, moves, _⟩ := exists_moves within (suffix_command name (ts.drop p))
    exact ⟨q, moves⟩
  sequenceLoop stop p := ends_sequence stop [] (ts.drop p)
  scriptsLoop e p := ends_scripts e (ts.drop p)
  bodyLoop p := ends_body [] (ts.drop p)
  formulaLoop := ends_formula [] ts

end OfficeFormula.Latex
