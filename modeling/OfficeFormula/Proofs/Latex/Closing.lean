import OfficeFormula.Proofs.Latex.Depth
import OfficeFormula.Proofs.Latex.Progress

/-!
# Missing closing braces

Where tokens are used up, each function of the grammar does what it does before a closing brace. So a
formula is read the same with one more closing brace at its end, whether something is open there or
not, and hence with any number of them (`parseTokens_append_closeGroups`). The one exception is a
delimiter command at the very end, which takes whatever token comes next.

Two runs of the parser are compared step by step. `Closed` says what is left in both: the brace is still
there in the one, or it has been taken where the other had nothing left.
-/

namespace OfficeFormula.Latex

/-! ## What is left in both runs -/

/-- The second tokens are the first with a closing brace behind them, unless all are used up. -/
inductive Closed : List Token → List Token → Prop where
  | more (ts : List Token) : Closed ts (ts ++ [.closeGroup])
  | used : Closed [] []

theorem Closed.eq_or {ts ts' : List Token} (closed : Closed ts ts') :
    ts' = ts ++ [.closeGroup] ∨ ts' = ts := by
  cases closed with
  | more => exact .inl rfl
  | used => exact .inr rfl

/-- Both runs step over the brace that closes a group, or neither does. -/
theorem Closed.skipClose {ts ts' : List Token} (closed : Closed ts ts') :
    Closed (skipClose ts) (skipClose ts') := by
  cases closed with
  | used => exact .used
  | more =>
    cases ts with
    | nil => exact .used
    | cons token more =>
      cases token with
      | closeGroup => exact .more more
      | _ => exact .more (_ :: more)

/-- The brace that is put behind is no end of a degree. -/
theorem Closed.skipDegreeEnd {ts ts' : List Token} (closed : Closed ts ts') :
    Closed (skipDegreeEnd ts) (skipDegreeEnd ts') := by
  cases closed with
  | used => exact .used
  | more =>
    cases ts with
    | nil => exact .more []
    | cons token more =>
      by_cases bracket : token = .operator ']'
      · rw [bracket]
        exact .more more
      · have kept (more : List Token) : Latex.skipDegreeEnd (token :: more) = token :: more := by
          unfold Latex.skipDegreeEnd
          split
          · next h => exact absurd (List.cons.inj h).1 bracket
          · rfl
        rw [List.cons_append, kept, kept]
        exact .more (token :: more)

section Heads

variable (ts : List Token)

theorem startsScript_append_closeGroup : startsScript (ts ++ [.closeGroup]) = startsScript ts := by
  cases ts with
  | nil => rfl
  | cons token more => cases token <;> rfl

theorem startsGroup_append_closeGroup : startsGroup (ts ++ [.closeGroup]) = startsGroup ts := by
  cases ts with
  | nil => rfl
  | cons token more => cases token <;> rfl

theorem endsScripts_append_closeGroup : endsScripts (ts ++ [.closeGroup]) = endsScripts ts := by
  cases ts with
  | nil => rfl
  | cons token more => cases token <;> rfl

theorem startsDegree_append_closeGroup : startsDegree (ts ++ [.closeGroup]) = startsDegree ts := by
  cases ts with
  | nil => rfl
  | cons token more =>
    unfold startsDegree
    rw [List.cons_append]
    split
    · next h =>
      rw [(List.cons.inj h).1]
      rfl
    · next other =>
      split
      · next h => exact absurd (by rw [(List.cons.inj h).1]) (other (more ++ [.closeGroup]))
      · rfl

end Heads

/-- No delimiter command stands at the end of the tokens. -/
def Whole (ts : List Token) : Prop :=
  ∀ name, ts.getLast? = some (.command name) → role name ≠ .delimiter

/-- What is left of whole tokens is whole. -/
theorem Whole.suffix {ts rest : List Token} (whole : Whole ts) (h : rest <:+ ts) : Whole rest := by
  obtain ⟨before, rfl⟩ := h
  intro name last
  apply whole name
  rw [List.getLast?_append, last, Option.some_or]

theorem Whole.tail {token : Token} {ts : List Token} (whole : Whole (token :: ts)) : Whole ts :=
  whole.suffix (List.suffix_cons token ts)

/-- Tokens that end with a brace are whole. -/
theorem whole_append_closeGroup (ts : List Token) : Whole (ts ++ [.closeGroup]) := by
  intro name last
  rw [List.getLast?_concat] at last
  simp at last

/-! ## Both runs read the same -/

/-- Two runs have read the same, to the same depth, and what they leave differs by the brace. -/
structure Alike {α : Type} {n n' : Nat} {ts ts' : List Token} (r : α × Left n ts) (r' : α × Left n' ts') :
    Prop where
  value : (reading r').1 = (reading r).1
  depth : depth r' = depth r
  left : Closed (reading r).2 (reading r').2

section Runs

variable {α : Type} {n n' : Nat} {ts ts' : List Token} {r : α × Left n ts} {r' : α × Left n' ts'}

/-- Two runs are alike if they read the same to the same depth and leave the same but for the brace. -/
theorem Alike.of_reading {x : α} {d : Nat} {rest rest' : List Token} (read : reading r = (x, rest))
    (read' : reading r' = (x, rest')) (deep : Latex.depth r = d) (deep' : Latex.depth r' = d)
    (closed : Closed rest rest') : Alike r r' := by
  refine ⟨?_, deep'.trans deep.symm, ?_⟩
  · rw [read, read']
  · rw [read, read']
    exact closed

/-- Two runs that go on from others in the same way. -/
theorem Alike.map {β : Type} {m m' : Nat} {us us' : List Token} {q : β × Left m us} {q' : β × Left m' us'}
    (alike : Alike q q') {f : β → α} {g : List Token → List Token} {k : Nat → Nat}
    (kept : ∀ {ts ts'}, Closed ts ts' → Closed (g ts) (g ts'))
    (read : reading r = (f (reading q).1, g (reading q).2))
    (read' : reading r' = (f (reading q').1, g (reading q').2)) (deep : Latex.depth r = k (Latex.depth q))
    (deep' : Latex.depth r' = k (Latex.depth q')) : Alike r r' := by
  rw [alike.value] at read'
  rw [alike.depth] at deep'
  exact .of_reading read read' deep deep' (kept alike.left)

theorem Alike.same {m m' : Nat} {us us' : List Token} {q : α × Left m us} {q' : α × Left m' us'}
    (alike : Alike q q') (read : reading r = reading q) (read' : reading r' = reading q')
    (deep : Latex.depth r = Latex.depth q) (deep' : Latex.depth r' = Latex.depth q') : Alike r r' :=
  alike.map (f := id) (g := id) (k := id) id read read' deep deep'

/-- A run from where two earlier ones ended. Where all tokens are used up there is only one. -/
theorem Alike.of_closed {α : Type} {n : List Token → Nat} {f : (ts : List Token) → α × Left (n ts) ts}
    (more : Alike (f ts) (f (ts ++ [.closeGroup]))) (suffix : (reading (f [])).2 <:+ [])
    (closed : Closed ts ts') : Alike (f ts) (f ts') := by
  cases closed with
  | more => exact more
  | used =>
    refine ⟨rfl, rfl, ?_⟩
    rw [List.suffix_nil.1 suffix]
    exact .used

end Runs

/-- A name goes up to the next closing brace, which is taken with it. -/
theorem reading_environmentName_openGroup (more : List Token) :
    reading (environmentName (.openGroup :: more)) =
      (String.ofList ((more.takeWhile (· ≠ .closeGroup)).flatMap Token.text),
        (more.dropWhile (· ≠ .closeGroup)).drop 1) := by
  have behind : more.drop ((more.takeWhile (· ≠ .closeGroup)).length + 1) =
      (more.dropWhile (· ≠ .closeGroup)).drop 1 := by
    induction more with
    | nil => rfl
    | cons token more ih =>
      by_cases close : token = .closeGroup
      · simp [close]
      · simpa [close] using ih
  simp only [environmentName, reading, behind]

theorem reading_environmentName_other {ts : List Token} (h : startsGroup ts = false) :
    reading (environmentName ts) = ("", ts) := by
  unfold environmentName
  split
  · simp [startsGroup] at h
  · rfl

/-- A name in braces ends before the brace that is put behind. -/
theorem span_append_closeGroup (ts : List Token) :
    (ts ++ [Token.closeGroup]).takeWhile (· ≠ .closeGroup) = ts.takeWhile (· ≠ .closeGroup) ∧
      (ts ++ [Token.closeGroup]).dropWhile (· ≠ .closeGroup) =
        ts.dropWhile (· ≠ .closeGroup) ++ [.closeGroup] := by
  induction ts with
  | nil => exact ⟨rfl, rfl⟩
  | cons token more ih =>
    by_cases close : token = .closeGroup
    · simp [close]
    · simpa [close] using ih

/-- The name of an environment is read alike, closed or not. -/
theorem alike_environmentName (ts : List Token) :
    Alike (environmentName ts) (environmentName (ts ++ [.closeGroup])) := by
  have deep := depth_environmentName ts
  have deep' := depth_environmentName (ts ++ [.closeGroup])
  cases group : startsGroup ts with
  | false =>
    have group' : startsGroup (ts ++ [.closeGroup]) = false := by
      rw [startsGroup_append_closeGroup, group]
    exact .of_reading (reading_environmentName_other group) (reading_environmentName_other group') deep deep'
      (.more ts)
  | true =>
    obtain ⟨more, rfl⟩ : ∃ more, ts = .openGroup :: more := by
      unfold startsGroup at group
      split at group
      · exact ⟨_, rfl⟩
      · simp at group
    obtain ⟨taken, dropped⟩ := span_append_closeGroup more
    have read' := reading_environmentName_openGroup (more ++ [.closeGroup])
    rw [taken, dropped] at read'
    refine .of_reading (reading_environmentName_openGroup more) read' deep deep' ?_
    cases more.dropWhile (· ≠ .closeGroup) with
    | nil => exact .used
    | cons close rest => exact .more rest

/-! ## The grammar -/

mutual

theorem alike_expression (ts : List Token) (whole : Whole ts) :
    Alike (expression ts) (expression (ts ++ [.closeGroup])) := by
  have starts := startsScript_append_closeGroup ts
  cases h : startsScript ts with
  | true =>
    rw [h] at starts
    exact (alike_scripts .empty ts whole).same
      (reading_expression_of_script h) (reading_expression_of_script starts)
      (depth_expression_of_script h) (depth_expression_of_script starts)
  | false =>
    rw [h] at starts
    have left := length_reading (nucleus ts)
    have first := alike_nucleus ts whole
    have later := Alike.of_closed
      (alike_scripts (reading (nucleus ts)).1 _ (whole.suffix (suffix_nucleus ts))) (suffix_scripts _ [])
      first.left
    have read' := reading_expression starts
    have deep' := depth_expression starts
    rw [first.value] at read' deep'
    rw [first.depth] at deep'
    exact later.map (f := id) (g := id) id (reading_expression h) read' (depth_expression h) deep'
termination_by 5 * ts.length + 1
decreasing_by
  all_goals omega

theorem alike_nucleus (ts : List Token) (whole : Whole ts) :
    Alike (nucleus ts) (nucleus (ts ++ [.closeGroup])) := by
  match ts with
  | [] =>
    exact .of_reading reading_nucleus_nil (reading_nucleus_closeGroup []) depth_nucleus_nil
      (depth_nucleus_closeGroup []) (.more [])
  | .closeGroup :: more =>
    exact .of_reading (reading_nucleus_closeGroup _) (reading_nucleus_closeGroup _)
      (depth_nucleus_closeGroup _) (depth_nucleus_closeGroup _) (.more (.closeGroup :: more))
  | .subscript :: more =>
    exact .of_reading (reading_nucleus_subscript _) (reading_nucleus_subscript _)
      (depth_nucleus_subscript _) (depth_nucleus_subscript _) (.more (.subscript :: more))
  | .superscript :: more =>
    exact .of_reading (reading_nucleus_superscript _) (reading_nucleus_superscript _)
      (depth_nucleus_superscript _) (depth_nucleus_superscript _) (.more (.superscript :: more))
  | .number digits :: more =>
    exact .of_reading (reading_nucleus_number _ _) (reading_nucleus_number _ _)
      (depth_nucleus_number _ _) (depth_nucleus_number _ _) (.more more)
  | .operator c :: more =>
    exact .of_reading (reading_nucleus_operator _ _) (reading_nucleus_operator _ _)
      (depth_nucleus_operator _ _) (depth_nucleus_operator _ _) (.more more)
  | .literal c :: more =>
    exact .of_reading (reading_nucleus_literal _ _) (reading_nucleus_literal _ _)
      (depth_nucleus_literal _ _) (depth_nucleus_literal _ _) (.more more)
  | .openGroup :: more =>
    have read (ts : List Token) := (reading_nucleus_openGroup ts).trans (reading_group ts)
    exact (alike_sequence (fun _ => false) more whole.tail).map (k := (· + 1)) Closed.skipClose (read more)
      (read _) (depth_nucleus_openGroup _) (depth_nucleus_openGroup _)
  | .command name :: more =>
    exact (alike_command name more whole).map (f := id) (g := id) (k := (· + 1)) id
      (reading_nucleus_command _ _) (reading_nucleus_command _ _) (depth_nucleus_command _ _)
      (depth_nucleus_command _ _)
termination_by 5 * ts.length
decreasing_by
  all_goals (simp only [List.length_cons]; omega)

theorem alike_sequence (stop : Token → Bool) (ts : List Token) (whole : Whole ts) :
    Alike (sequence stop ts) (sequence stop (ts ++ [.closeGroup])) := by
  match ts with
  | [] =>
    exact .of_reading (reading_sequence_nil stop) (reading_sequence_stop [] (.inl rfl))
      (depth_sequence_nil stop) (depth_sequence_stop [] (.inl rfl)) (.more [])
  | token :: more =>
    by_cases h : token = .closeGroup ∨ stop token = true
    · exact .of_reading (reading_sequence_stop more h) (reading_sequence_stop _ h)
        (depth_sequence_stop more h) (depth_sequence_stop _ h) (.more (token :: more))
    · have left := length_reading (expression (token :: more))
      have step : itemStep (token :: more) = 1 := itemStep_cons fun close => h (.inl close)
      have first := alike_expression (token :: more) whole
      have later := Alike.of_closed (alike_sequence stop _ (whole.suffix (suffix_expression (token :: more))))
        (suffix_sequence stop []) first.left
      have read' := reading_sequence_cons (more ++ [.closeGroup]) h
      have deep' := depth_sequence_cons (more ++ [.closeGroup]) h
      rw [← List.cons_append, first.value] at read'
      rw [← List.cons_append, first.depth] at deep'
      exact later.map (f := ((reading (expression (token :: more))).1 :: ·)) (g := id) id
        (reading_sequence_cons more h) read' (depth_sequence_cons more h) deep'
termination_by 5 * ts.length + 2
decreasing_by
  all_goals omega

theorem alike_scripts (e : Expr) (ts : List Token) (whole : Whole ts) :
    Alike (scripts e ts) (scripts e (ts ++ [.closeGroup])) := by
  have goesOn := endsScripts_append_closeGroup ts
  by_cases ends : endsScripts ts = true
  · rw [ends] at goesOn
    exact .of_reading (reading_scripts_end e ends) (reading_scripts_end e goesOn) (depth_scripts_end e ends)
      (depth_scripts_end e goesOn) (.more ts)
  · match ts with
    | .subscript :: more =>
      have left := length_reading (nucleus more)
      have first := alike_nucleus more whole.tail
      have later := Alike.of_closed (alike_scripts (e.withSub (reading (nucleus more)).1) _
        (whole.tail.suffix (suffix_nucleus more))) (suffix_scripts _ []) first.left
      have read' := reading_scripts_subscript e (more ++ [.closeGroup])
      have deep' := depth_scripts_subscript e (more ++ [.closeGroup])
      rw [first.value] at read' deep'
      rw [first.depth] at deep'
      exact later.map (f := id) (g := id) id (reading_scripts_subscript e more) read'
        (depth_scripts_subscript e more) deep'
    | .superscript :: more =>
      have left := length_reading (nucleus more)
      have first := alike_nucleus more whole.tail
      have later := Alike.of_closed (alike_scripts (e.withSup (reading (nucleus more)).1) _
        (whole.tail.suffix (suffix_nucleus more))) (suffix_scripts _ []) first.left
      have read' := reading_scripts_superscript e (more ++ [.closeGroup])
      have deep' := depth_scripts_superscript e (more ++ [.closeGroup])
      rw [first.value] at read' deep'
      rw [first.depth] at deep'
      exact later.map (f := id) (g := id) id (reading_scripts_superscript e more) read'
        (depth_scripts_superscript e more) deep'
    | .command name :: more =>
      have modifier : limitModifiers.contains name = true := by simpa [endsScripts] using ends
      exact (alike_scripts e more whole.tail).same
        (reading_scripts_modifier e modifier _) (reading_scripts_modifier e modifier _)
        (depth_scripts_modifier e modifier _) (depth_scripts_modifier e modifier _)
    | [] | .literal _ :: _ | .number _ :: _ | .operator _ :: _ | .openGroup :: _ | .closeGroup :: _ =>
      exact absurd rfl ends
termination_by 5 * ts.length
decreasing_by
  all_goals (simp only [List.length_cons]; omega)

theorem alike_command (name : String) (ts : List Token) (whole : Whole (.command name :: ts)) :
    Alike (command name ts) (command name (ts ++ [.closeGroup])) := by
  have inside := whole.tail
  cases h : role name with
  | fraction =>
    have left := length_reading (nucleus ts)
    have first := alike_nucleus ts inside
    have later := Alike.of_closed (alike_nucleus _ (inside.suffix (suffix_nucleus ts))) (suffix_nucleus [])
      first.left
    have read' := reading_command_fraction (ts ++ [.closeGroup]) h
    have deep' := depth_command_fraction (ts ++ [.closeGroup]) h
    rw [first.value] at read'
    rw [first.depth] at deep'
    exact later.map (f := fun den => (Nucleus.frac (reading (nucleus ts)).1 den).plain) (g := id) id
      (reading_command_fraction ts h) read' (depth_command_fraction ts h) deep'
  | root =>
    exact (alike_root ts inside).same (reading_command_root _ h)
      (reading_command_root _ h) (depth_command_root _ h) (depth_command_root _ h)
  | delimiter =>
    cases ts with
    | nil => exact absurd h (whole name rfl)
    | cons token more =>
      exact .of_reading (reading_command_delimiter _ h token) (reading_command_delimiter _ h token)
        (depth_command_delimiter _ h) (depth_command_delimiter _ h) (.more more)
  | beginEnvironment =>
    exact (alike_environment ts inside).same (reading_command_begin _ h)
      (reading_command_begin _ h) (depth_command_begin _ h) (depth_command_begin _ h)
  | endEnvironment =>
    exact .of_reading (reading_command_end _ h) (reading_command_end _ h) (depth_command_end _ h)
      (depth_command_end _ h) (alike_environmentName ts).left
  | bigOperator glyph =>
    exact .of_reading (reading_command_bigOperator _ h) (reading_command_bigOperator _ h)
      (depth_command_bigOperator _ h) (depth_command_bigOperator _ h) (.more ts)
  | symbol glyph =>
    exact .of_reading (reading_command_symbol _ h) (reading_command_symbol _ h)
      (depth_command_symbol _ h) (depth_command_symbol _ h) (.more ts)
  | relation glyph =>
    exact .of_reading (reading_command_relation _ h) (reading_command_relation _ h)
      (depth_command_relation _ h) (depth_command_relation _ h) (.more ts)
  | font =>
    exact (alike_nucleus ts inside).same (reading_command_font _ h)
      (reading_command_font _ h) (depth_command_font _ h) (depth_command_font _ h)
  | silent =>
    exact .of_reading (reading_command_silent _ h) (reading_command_silent _ h)
      (depth_command_silent _ h) (depth_command_silent _ h) (.more ts)
  | wideSpace =>
    exact .of_reading (reading_command_wideSpace _ h) (reading_command_wideSpace _ h)
      (depth_command_wideSpace _ h) (depth_command_wideSpace _ h) (.more ts)
  | unknown =>
    exact .of_reading (reading_command_unknown _ h) (reading_command_unknown _ h)
      (depth_command_unknown _ h) (depth_command_unknown _ h) (.more ts)
termination_by 5 * ts.length + 4
decreasing_by
  all_goals omega

theorem alike_root (ts : List Token) (whole : Whole ts) :
    Alike (root ts) (root (ts ++ [.closeGroup])) := by
  have starts := startsDegree_append_closeGroup ts
  cases h : startsDegree ts with
  | true =>
    rw [h] at starts
    have ne : ts ≠ [] := by
      rintro rfl
      simp [startsDegree] at h
    have behind : (ts ++ [Token.closeGroup]).drop 1 = ts.drop 1 ++ [.closeGroup] :=
      List.drop_append_of_le_length (List.length_pos_iff.2 ne)
    have dropped : (ts.drop 1).length ≤ ts.length := by simp
    have left := length_reading (sequence (· = .operator ']') (ts.drop 1))
    have skipped := length_skipDegreeEnd_le (reading (sequence (· = .operator ']') (ts.drop 1))).2
    have inside : Whole (ts.drop 1) := whole.suffix (List.drop_suffix 1 ts)
    have first := alike_sequence (· = .operator ']') (ts.drop 1) inside
    have after := inside.suffix ((suffix_skipDegreeEnd _).trans (suffix_sequence (· = .operator ']') _))
    have later := Alike.of_closed (alike_nucleus _ after) (suffix_nucleus []) first.left.skipDegreeEnd
    have read' := reading_root_degree (ts ++ [.closeGroup]) starts
    have deep' := depth_root_degree (ts ++ [.closeGroup]) starts
    rw [behind, first.value] at read'
    rw [behind, first.depth] at deep'
    exact later.map (g := id) (f := fun base => (Nucleus.radical base (some (.group
        (reading (sequence (· = .operator ']') (ts.drop 1))).1))).plain) id
      (reading_root_degree ts h) read' (depth_root_degree ts h) deep'
  | false =>
    rw [h] at starts
    exact (alike_nucleus ts whole).map (f := fun base => (Nucleus.sqrt base).plain) (g := id) (k := id) id
      (reading_root_plain ts h) (reading_root_plain _ starts) (depth_root_plain ts h)
      (depth_root_plain _ starts)
termination_by 5 * ts.length + 3
decreasing_by
  all_goals omega

/-- A column specification is passed over alike. -/
theorem closed_afterColumns (name : String) (ts : List Token) (whole : Whole ts) {ts' : List Token}
    (closed : Closed ts ts') :
    Closed (afterColumns name ts) (afterColumns name ts') ∧ columnsDepth name ts' = columnsDepth name ts := by
  cases closed with
  | used => exact ⟨by simpa [afterColumns, startsGroup] using .used, rfl⟩
  | more =>
    have alike := alike_nucleus ts whole
    unfold afterColumns columnsDepth
    rw [startsGroup_append_closeGroup]
    split
    · exact ⟨alike.left, alike.depth⟩
    · exact ⟨.more ts, rfl⟩
termination_by 5 * ts.length + 1

theorem alike_environment (ts : List Token) (whole : Whole ts) :
    Alike (environment ts) (environment (ts ++ [.closeGroup])) := by
  have left := length_reading (environmentName ts)
  have shorter := (suffix_afterColumns (environmentName ts).1 (reading (environmentName ts)).2).length_le
  have name := alike_environmentName ts
  have same : (environmentName (ts ++ [.closeGroup])).1 = (environmentName ts).1 := name.value
  have named := whole.suffix (suffix_environmentName ts)
  have columns := closed_afterColumns (environmentName ts).1 _ named name.left
  have inside := named.suffix (suffix_afterColumns (environmentName ts).1 _)
  have later := Alike.of_closed (alike_body _ inside) (suffix_body []) columns.1
  have read' := reading_environment (ts ++ [.closeGroup])
  have deep' := depth_environment (ts ++ [.closeGroup])
  rw [same] at read' deep'
  rw [columns.2] at deep'
  exact later.map (g := id) (f := fun pieces => (Nucleus.environment (environmentName ts).1
      ((dropBlankLastRow (rowsOfPieces pieces)).map (·.map .group))).plain) id
    (reading_environment ts) read' (depth_environment ts) deep'
termination_by 5 * ts.length + 3
decreasing_by
  all_goals omega

theorem alike_body (ts : List Token) (whole : Whole ts) :
    Alike (body ts) (body (ts ++ [.closeGroup])) := by
  match ts with
  | [] =>
    exact .of_reading reading_body_nil (reading_body_closeGroup []) depth_body_nil
      (depth_body_closeGroup []) (.more [])
  | token :: more =>
    by_cases close : token = .closeGroup
    · rw [close]
      exact .of_reading (reading_body_closeGroup _) (reading_body_closeGroup _) (depth_body_closeGroup _)
        (depth_body_closeGroup _) (.more (.closeGroup :: more))
    by_cases ends : token = .command "end"
    · rw [ends]
      exact .of_reading (reading_body_end _) (reading_body_end _) (depth_body_end _) (depth_body_end _)
        (alike_environmentName more).left
    by_cases cell : token = .literal '&'
    · rw [cell]
      exact (alike_body more whole.tail).map (f := (.cellBreak :: ·)) (g := id) (k := id) id
        (reading_body_cellBreak _) (reading_body_cellBreak _) (depth_body_cellBreak _)
        (depth_body_cellBreak _)
    by_cases row : token = .command rowBreakName
    · rw [row]
      exact (alike_body more whole.tail).map (f := (.rowBreak :: ·)) (g := id) (k := id) id
        (reading_body_rowBreak _) (reading_body_rowBreak _) (depth_body_rowBreak _) (depth_body_rowBreak _)
    · have left := length_reading (expression (token :: more))
      have step : itemStep (token :: more) = 1 := itemStep_cons close
      have first := alike_expression (token :: more) whole
      have later := Alike.of_closed (alike_body _ (whole.suffix (suffix_expression (token :: more))))
        (suffix_body []) first.left
      have read' := reading_body_item (more ++ [.closeGroup]) close ends cell row
      have deep' := depth_body_item (more ++ [.closeGroup]) close ends cell row
      rw [← List.cons_append, first.value] at read'
      rw [← List.cons_append, first.depth] at deep'
      exact later.map (f := (.item (reading (expression (token :: more))).1 :: ·)) (g := id) id
        (reading_body_item more close ends cell row) read' (depth_body_item more close ends cell row) deep'
termination_by 5 * ts.length + 2
decreasing_by
  all_goals (simp only [List.length_cons] at *; omega)

end

/-! ## A whole formula -/

/-- One brace more at the end changes nothing. -/
theorem formulaItems_append_closeGroup (ts : List Token) (whole : Whole ts) :
    formulaItems (ts ++ [.closeGroup]) = formulaItems ts ∧ nesting (ts ++ [.closeGroup]) = nesting ts := by
  match ts with
  | [] =>
    rw [List.nil_append, formulaItems_closeGroup, nesting_closeGroup]
    exact ⟨rfl, rfl⟩
  | token :: more =>
    by_cases close : token = .closeGroup
    · rw [close, List.cons_append, formulaItems_closeGroup, formulaItems_closeGroup, nesting_closeGroup,
        nesting_closeGroup]
      exact formulaItems_append_closeGroup more whole.tail
    · have left := length_reading (expression (token :: more))
      have step : itemStep (token :: more) = 1 := itemStep_cons close
      have first := alike_expression (token :: more) whole
      have later := formulaItems_append_closeGroup _ (whole.suffix (suffix_expression (token :: more)))
      have rest : formulaItems (reading (expression (token :: more ++ [.closeGroup]))).2 =
            formulaItems (reading (expression (token :: more))).2 ∧
          nesting (reading (expression (token :: more ++ [.closeGroup]))).2 =
            nesting (reading (expression (token :: more))).2 := by
        rcases first.left.eq_or with same | same
        · rw [same]
          exact later
        · rw [same]
          exact ⟨rfl, rfl⟩
      rw [List.cons_append, formulaItems_cons _ close, formulaItems_cons more close, nesting_cons _ close,
        nesting_cons more close, ← List.cons_append, first.value, first.depth, rest.1, rest.2]
      exact ⟨rfl, rfl⟩
termination_by ts.length
decreasing_by
  all_goals (simp only [List.length_cons] at *; omega)

theorem mem_of_role_delimiter {name : String} (h : role name = .delimiter) : name ∈ ["left", "right"] := by
  unfold role at h
  repeat' split at h
  all_goals cases h
  next found => exact List.contains_iff_mem.1 found

/-- By induction neither do any number of them. -/
theorem formulaItems_append_closeGroups {ts : List Token} (whole : Whole ts) (k : Nat) :
    formulaItems (ts ++ List.replicate k .closeGroup) = formulaItems ts ∧
      nesting (ts ++ List.replicate k .closeGroup) = nesting ts := by
  induction k generalizing ts with
  | zero => simp
  | succ k ih =>
    have first := formulaItems_append_closeGroup ts whole
    have later := ih (whole_append_closeGroup ts)
    rw [List.replicate_succ, ← List.singleton_append, ← List.append_assoc, later.1, later.2]
    exact first

/-- A formula is read the same with any number of closing braces behind it, and to the same depth, unless
it ends with a command that takes the next token as a delimiter. -/
theorem parseTokens_append_closeGroups {ts : List Token} (left : ts.getLast? ≠ some (.command "left"))
    (right : ts.getLast? ≠ some (.command "right")) (k : Nat) :
    parseTokens (ts ++ List.replicate k .closeGroup) = parseTokens ts ∧
      nesting (ts ++ List.replicate k .closeGroup) = nesting ts := by
  have whole : Whole ts := by
    intro name last delimiter
    have known := mem_of_role_delimiter delimiter
    simp only [List.mem_cons, List.not_mem_nil, or_false] at known
    rcases known with rfl | rfl
    · exact left last
    · exact right last
  obtain ⟨items, depth⟩ := formulaItems_append_closeGroups whole k
  exact ⟨by rw [parseTokens, parseTokens, items], depth⟩

/-- A group, the degree of a root, a script, an environment and the name of another are all open. -/
def leftOpen : List Token :=
  tokenize "\x7ba \\left ) \\sqrt[n+\x7bx_\x7b\\begin\x7bmatrix\x7d b & \\frac \\begin\x7barray".toList

theorem parseTokens_append_closeGroups_leftOpen :
    leftOpen.getLast? ≠ some (.command "left") ∧ leftOpen.getLast? ≠ some (.command "right") ∧
      parseTokens (leftOpen ++ List.replicate 7 .closeGroup) = parseTokens leftOpen ∧
      nesting (leftOpen ++ List.replicate 7 .closeGroup) = nesting leftOpen :=
  have left : leftOpen.getLast? ≠ some (.command "left") := by decide +kernel
  have right : leftOpen.getLast? ≠ some (.command "right") := by decide +kernel
  ⟨left, right, parseTokens_append_closeGroups left right 7⟩

end OfficeFormula.Latex
