import OfficeFormula.Proofs.Latex.ReadingOrder

/-!
# Symbols and repeated scripts

An expression has room for one subscript and one superscript. Where the tokens have several scripts of a kind
on one base, each takes the place of the one before it, and what that one held is gone. `overwritten` finds
these scripts in the tokens alone, by counting braces and comparing marks. Nothing else of a formula without
commands and alignment marks is lost: every symbol of it is in the text of the markup or in a script that is
overwritten, and in as many places as it was written (`count_textContent_parse`).

Two inductions over the grammar carry this. The first says where an argument ends (`rest_nucleus`), so that
the parser and `overwritten` agree on what a script holds. The second keeps account of one character, from
the tokens that are given to those that are left (`Accounts`).
-/

namespace OfficeFormula.Latex

/-! ## Scripts that are overwritten -/

/-- What follows the closing brace of a group, with `depth` more groups open inside it. -/
def afterGroup : Nat → List Token → List Token
  | _, [] => []
  | depth, .openGroup :: more => afterGroup (depth + 1) more
  | 0, .closeGroup :: more => more
  | depth + 1, .closeGroup :: more => afterGroup depth more
  | depth, _ :: more => afterGroup depth more

/-- What follows the argument of a script. It is a group or one token, and is missing where a closing brace or
another script stands. -/
def afterArgument (ts : List Token) : List Token :=
  match ts with
  | .openGroup :: more => afterGroup 0 more
  | .command _ :: more | .literal _ :: more | .number _ :: more | .operator _ :: more => more
  | _ => ts

theorem suffix_afterGroup (depth : Nat) (ts : List Token) : afterGroup depth ts <:+ ts := by
  fun_induction afterGroup depth ts with
  | case1 => exact List.suffix_rfl
  | case2 depth more ih => exact ih.trans (List.suffix_cons _ more)
  | case3 more => exact List.suffix_cons _ more
  | case4 depth more ih => exact ih.trans (List.suffix_cons _ more)
  | case5 depth token more _ _ _ ih => exact ih.trans (List.suffix_cons token more)

theorem suffix_afterArgument (ts : List Token) : afterArgument ts <:+ ts := by
  unfold afterArgument
  split
  · exact (suffix_afterGroup _ _).trans (List.suffix_cons _ _)
  · exact List.suffix_cons _ _
  · exact List.suffix_cons _ _
  · exact List.suffix_cons _ _
  · exact List.suffix_cons _ _
  · exact List.suffix_rfl

theorem length_afterArgument_le (ts : List Token) : (afterArgument ts).length ≤ ts.length :=
  (suffix_afterArgument ts).length_le

/-- The marks of the scripts that the tokens begin with. -/
def scriptMarks : List Token → List Token
  | [] => []
  | mark :: more => if startsScript [mark] then mark :: scriptMarks (afterArgument more) else []
termination_by ts => ts.length
decreasing_by
  have := length_afterArgument_le more
  simp only [List.length_cons]
  omega

/-- The arguments of those scripts that are followed, on the same base, by another of their kind. -/
def overwritten : List Token → List Token
  | [] => []
  | token :: more =>
    if startsScript [token] ∧ token ∈ scriptMarks (afterArgument more) then
      more.take (more.length - (afterArgument more).length) ++ overwritten (afterArgument more)
    else overwritten more
termination_by ts => ts.length
decreasing_by
  all_goals
    have := length_afterArgument_le more
    simp only [List.length_cons]
    omega

/-! ## One more script -/

theorem eq_or_of_startsScript {mark : Token} (h : startsScript [mark] = true) :
    mark = .subscript ∨ mark = .superscript := by
  cases mark with
  | subscript => exact .inl rfl
  | superscript => exact .inr rfl
  | _ => cases h

/-- The expression with the script of that mark replaced. -/
def Expr.withScript (mark : Token) (e arg : Expr) : Expr :=
  if mark = .subscript then e.withSub arg else e.withSup arg

/-- Both marks are read alike: the next argument becomes the script of that kind. -/
theorem reading_scripts_mark {mark : Token} (h : startsScript [mark] = true) (e : Expr) (more : List Token) :
    reading (scripts e (mark :: more)) =
      reading (scripts (e.withScript mark (reading (nucleus more)).1) (reading (nucleus more)).2) := by
  rcases eq_or_of_startsScript h with rfl | rfl
  · exact reading_scripts_subscript e more
  · exact reading_scripts_superscript e more

/-! ## Where an argument ends -/

/-- The token is neither a command nor an alignment mark. -/
def Token.isBare : Token → Bool
  | .command _ => false
  | .literal c => c ≠ '&'
  | _ => true

/-- All the tokens are bare. -/
def Bare (ts : List Token) : Prop := ∀ token ∈ ts, token.isBare = true

theorem Bare.suffix {ts rest : List Token} (bare : Bare ts) (h : rest <:+ ts) : Bare rest :=
  fun token htoken => bare token (h.subset htoken)

theorem Bare.tail {token : Token} {ts : List Token} (bare : Bare (token :: ts)) : Bare ts :=
  bare.suffix (List.suffix_cons token ts)

theorem Bare.head {token : Token} {ts : List Token} (bare : Bare (token :: ts)) : token.isBare = true :=
  bare token List.mem_cons_self

/-- Scripts go on with a mark only. -/
theorem Bare.startsScript {token : Token} {ts : List Token} (bare : Bare (token :: ts))
    (h : ¬endsScripts (token :: ts) = true) : startsScript [token] = true := by
  have head := bare.head
  cases token with
  | command => cases head
  | subscript => rfl
  | superscript => rfl
  | _ => exact absurd rfl h

theorem afterGroup_afterGroup (outer inner : Nat) (ts : List Token) :
    afterGroup outer (afterGroup inner ts) = afterGroup (outer + inner + 1) ts := by
  fun_induction afterGroup inner ts with
  | case1 => rfl
  | case2 inner more ih => exact ih
  | case3 more => rfl
  | case4 inner more ih => exact ih
  | case5 inner token more opens closes closes' ih =>
    have close : token ≠ .closeGroup := by
      cases inner with
      | zero => exact closes rfl
      | succ depth => exact closes' depth rfl
    rw [ih]
    cases token <;> simp_all [afterGroup]

/-- An argument opens no group that it leaves open. -/
theorem afterGroup_afterArgument (ts : List Token) : afterGroup 0 (afterArgument ts) = afterGroup 0 ts := by
  unfold afterArgument
  split
  · exact afterGroup_afterGroup 0 0 _
  all_goals rfl

mutual

/-- Counting braces finds where an argument ends. -/
theorem rest_nucleus (ts : List Token) (bare : Bare ts) : (reading (nucleus ts)).2 = afterArgument ts := by
  match ts with
  | [] => rw [reading_nucleus_nil]; rfl
  | .closeGroup :: more => rw [reading_nucleus_closeGroup]; rfl
  | .subscript :: more => rw [reading_nucleus_subscript]; rfl
  | .superscript :: more => rw [reading_nucleus_superscript]; rfl
  | .openGroup :: more =>
    rw [reading_nucleus_openGroup, reading_group]
    exact rest_sequence more bare.tail
  | .command name :: more => exact absurd bare.head (by simp [Token.isBare])
  | .number digits :: more => rw [reading_nucleus_number]; rfl
  | .operator c :: more => rw [reading_nucleus_operator]; rfl
  | .literal c :: more => rw [reading_nucleus_literal]; rfl
termination_by 5 * ts.length
decreasing_by
  all_goals (simp only [List.length_cons]; omega)

theorem rest_sequence (ts : List Token) (bare : Bare ts) :
    skipClose (reading (sequence (fun _ => false) ts)).2 = afterGroup 0 ts := by
  match ts with
  | [] => rw [reading_sequence_nil]; rfl
  | token :: more =>
    by_cases close : token = .closeGroup
    · rw [close, reading_sequence_stop more (.inl rfl)]
      rfl
    · have left := length_reading (expression (token :: more))
      have step : itemStep (token :: more) = 1 := itemStep_cons close
      rw [reading_sequence_cons more (by simpa using close), ← rest_expression (token :: more) bare]
      exact rest_sequence _ (bare.suffix (suffix_expression (token :: more)))
termination_by 5 * ts.length + 2
decreasing_by
  all_goals omega

theorem rest_expression (ts : List Token) (bare : Bare ts) :
    afterGroup 0 (reading (expression ts)).2 = afterGroup 0 ts := by
  by_cases h : startsScript ts = true
  · rw [reading_expression_of_script h]
    exact rest_scripts .empty ts bare
  · have left := length_reading (nucleus ts)
    rw [reading_expression (by simpa using h), rest_scripts _ _ (bare.suffix (suffix_nucleus ts)),
      rest_nucleus ts bare, afterGroup_afterArgument]
termination_by 5 * ts.length + 1
decreasing_by
  all_goals omega

theorem rest_scripts (e : Expr) (ts : List Token) (bare : Bare ts) :
    afterGroup 0 (reading (scripts e ts)).2 = afterGroup 0 ts := by
  by_cases ends : endsScripts ts = true
  · rw [reading_scripts_end e ends]
  · match ts with
    | [] => exact absurd rfl ends
    | token :: more =>
      have mark := bare.startsScript ends
      have left := length_reading (nucleus more)
      rw [reading_scripts_mark mark, rest_scripts _ _ (bare.tail.suffix (suffix_nucleus more)),
        rest_nucleus more bare.tail, afterGroup_afterArgument]
      rcases eq_or_of_startsScript mark with rfl | rfl <;> rfl
termination_by 5 * ts.length
decreasing_by
  all_goals (simp only [List.length_cons]; omega)

end

/-! ## Keeping account of a character -/

/-- How often the character is in the tokens. -/
def countChar (c : Char) (ts : List Token) : Nat := (ts.flatMap Token.text).count c

theorem countChar_cons (c : Char) (token : Token) (ts : List Token) :
    countChar c (token :: ts) = token.text.count c + countChar c ts := by
  rw [countChar, List.flatMap_cons, List.count_append, countChar]

theorem countChar_append (c : Char) (ts us : List Token) :
    countChar c (ts ++ us) = countChar c ts + countChar c us := by
  rw [countChar, List.flatMap_append, List.count_append, countChar, countChar]

/-- Where `ts` is given and `rest` is left, the character is in the text `t` as often as it was written,
except in scripts that are overwritten. -/
def Accounts (c : Char) (t : Text) (ts rest : List Token) : Prop :=
  t.count c + countChar c (overwritten ts) + countChar c rest =
    countChar c ts + countChar c (overwritten rest)

section Accounts

variable {c : Char} {t u : Text} {ts mid rest : List Token}

theorem Accounts.refl : Accounts c [] ts ts := by
  rw [Accounts, List.count_nil]
  omega

theorem Accounts.trans (first : Accounts c t ts mid) (last : Accounts c u mid rest) :
    Accounts c (t ++ u) ts rest := by
  rw [Accounts] at *
  rw [List.count_append]
  omega

/-- A token that is no mark of a script is passed over. -/
theorem overwritten_cons {token : Token} (h : startsScript [token] = false) (more : List Token) :
    overwritten (token :: more) = overwritten more := by
  rw [overwritten, if_neg (by simp [h])]

theorem accounts_token (token : Token) (h : startsScript [token] = false) (more : List Token) :
    Accounts c token.text (token :: more) more := by
  rw [Accounts, overwritten_cons h, countChar_cons]
  omega

/-- Braces and marks of scripts hold no symbol. -/
theorem count_text_of_mem_markTokens (symbol : c ∉ ['{', '}', '_', '^']) {token : Token}
    (h : token ∈ markTokens) : token.text.count c = 0 := by
  refine List.count_eq_zero.2 fun hc => symbol ?_
  change c ∈ markTokens.flatMap Token.text
  exact List.mem_flatMap_of_mem h hc

theorem accounts_brace (symbol : c ∉ ['{', '}', '_', '^']) {brace : Token}
    (h : brace = .openGroup ∨ brace = .closeGroup) (more : List Token) : Accounts c [] (brace :: more) more := by
  have passed : startsScript [brace] = false := by rcases h with rfl | rfl <;> rfl
  have silent : brace.text.count c = 0 :=
    count_text_of_mem_markTokens symbol (by rcases h with rfl | rfl <;> decide)
  have account := @accounts_token c brace passed more
  rw [Accounts] at *
  rw [List.count_nil]
  omega

theorem Accounts.skipClose (symbol : c ∉ ['{', '}', '_', '^']) (h : Accounts c t ts rest) :
    Accounts c t ts (skipClose rest) := by
  unfold Latex.skipClose
  split
  · next more =>
    have account := h.trans (accounts_brace symbol (.inr rfl) more)
    rwa [List.append_nil] at account
  · exact h

/-- The argument of a script is kept unless another script of the kind follows. -/
theorem accounts_script (symbol : c ∉ ['{', '}', '_', '^']) {mark : Token}
    (hmark : startsScript [mark] = true) (more : List Token) (h : Accounts c t more (afterArgument more)) :
    Accounts c (if mark ∈ scriptMarks (afterArgument more) then [] else t) (mark :: more)
      (afterArgument more) := by
  have silent : mark.text.count c = 0 := by
    rcases eq_or_of_startsScript hmark with rfl | rfl <;> exact count_text_of_mem_markTokens symbol (by decide)
  have parts : countChar c more =
      countChar c (more.take (more.length - (afterArgument more).length)) +
        countChar c (afterArgument more) := by
    rw [← countChar_append, List.suffix_iff_eq_append.1 (suffix_afterArgument more)]
  rw [Accounts] at *
  rw [overwritten, countChar_cons, silent]
  by_cases again : mark ∈ scriptMarks (afterArgument more)
  · rw [if_pos again, if_pos ⟨hmark, again⟩, countChar_append, List.count_nil]
    omega
  · rw [if_neg again, if_neg fun both => again both.2]
    omega

end Accounts

/-! ## The text of what is read -/

/-- The text of an expression without the scripts whose marks are given. -/
def Expr.yieldWithout (marks : List Token) : Expr → Text
  | .mk n sub sup =>
    n.yield ++ ((if .subscript ∈ marks then [] else yieldOpt sub) ++
      (if .superscript ∈ marks then [] else yieldOpt sup))

theorem yieldWithout_nil (e : Expr) : e.yieldWithout [] = e.yield := by
  cases e with
  | mk n sub sup => rw [Expr.yieldWithout, Expr.yield, if_neg (by simp), if_neg (by simp)]

theorem yieldWithout_plain (n : Nucleus) (marks : List Token) : n.plain.yieldWithout marks = n.plain.yield := by
  rw [Nucleus.plain, Expr.yieldWithout, Expr.yield, yieldOpt, ite_self, ite_self]

/-- Of the scripts that are put on, those that come again are not kept. -/
theorem count_yieldWithout_withScript {mark : Token} (h : startsScript [mark] = true) (c : Char)
    (marks : List Token) (e arg : Expr) :
    ((e.withScript mark arg).yieldWithout marks).count c = (e.yieldWithout (mark :: marks)).count c +
      (if mark ∈ marks then [] else arg.yield).count c := by
  cases e with
  | mk n sub sup =>
    rcases eq_or_of_startsScript h with rfl | rfl
    · have other : .superscript ∈ Token.subscript :: marks ↔ .superscript ∈ marks := by simp
      rw [Expr.withScript, if_pos rfl, Expr.withSub, Expr.yieldWithout, Expr.yieldWithout,
        if_pos List.mem_cons_self, yieldOpt]
      simp only [other, List.count_append, List.count_nil]
      omega
    · have other : .subscript ∈ Token.superscript :: marks ↔ .subscript ∈ marks := by simp
      rw [Expr.withScript, if_neg (by decide), Expr.withSup, Expr.yieldWithout, Expr.yieldWithout,
        if_pos (List.mem_cons_self : Token.superscript ∈ Token.superscript :: marks), yieldOpt]
      simp only [other, List.count_append, List.count_nil]
      omega

theorem scriptMarks_cons {mark : Token} (h : startsScript [mark] = true) (more : List Token) :
    scriptMarks (mark :: more) = mark :: scriptMarks (afterArgument more) := by
  rw [scriptMarks, if_pos h]

theorem scriptMarks_of_endsScripts {ts : List Token} (h : endsScripts ts = true) : scriptMarks ts = [] := by
  cases ts with
  | nil => rw [scriptMarks]
  | cons token more =>
    rw [scriptMarks, if_neg]
    cases token <;> simp_all [startsScript, endsScripts]

/-- One item is read without scripts. -/
theorem exists_plain_nucleus {ts : List Token} (bare : Bare ts) :
    ∃ n : Nucleus, (reading (nucleus ts)).1 = n.plain := by
  match ts with
  | [] => rw [reading_nucleus_nil]; exact ⟨_, rfl⟩
  | .closeGroup :: more => rw [reading_nucleus_closeGroup]; exact ⟨_, rfl⟩
  | .subscript :: more => rw [reading_nucleus_subscript]; exact ⟨_, rfl⟩
  | .superscript :: more => rw [reading_nucleus_superscript]; exact ⟨_, rfl⟩
  | .openGroup :: more => rw [reading_nucleus_openGroup, reading_group]; exact ⟨_, rfl⟩
  | .command name :: more => exact absurd bare.head (by simp [Token.isBare])
  | .number digits :: more => rw [reading_nucleus_number]; exact ⟨_, rfl⟩
  | .operator c :: more => rw [reading_nucleus_operator]; exact ⟨_, rfl⟩
  | .literal c :: more =>
    have shown : c ≠ '&' := by simpa [Token.isBare] using bare.head
    rw [reading_nucleus_literal, if_neg shown]
    exact ⟨_, rfl⟩

section Grammar

variable {c : Char}

mutual

theorem accounts_nucleus (symbol : c ∉ ['{', '}', '_', '^']) (ts : List Token) (bare : Bare ts) :
    Accounts c (reading (nucleus ts)).1.yield ts (reading (nucleus ts)).2 := by
  match ts with
  | [] => rw [reading_nucleus_nil, yield_empty]; exact .refl
  | .closeGroup :: more => rw [reading_nucleus_closeGroup, yield_empty]; exact .refl
  | .subscript :: more => rw [reading_nucleus_subscript, yield_empty]; exact .refl
  | .superscript :: more => rw [reading_nucleus_superscript, yield_empty]; exact .refl
  | .openGroup :: more =>
    rw [reading_nucleus_openGroup, reading_group, yield_group]
    have inside := (accounts_sequence symbol more bare.tail).skipClose symbol
    exact (accounts_brace symbol (.inl rfl) more).trans inside
  | .command name :: more => exact absurd bare.head (by simp [Token.isBare])
  | .number digits :: more => rw [reading_nucleus_number, yield_atom]; exact accounts_token (.number digits) rfl more
  | .operator d :: more => rw [reading_nucleus_operator, yield_atom]; exact accounts_token (.operator d) rfl more
  | .literal d :: more =>
    have shown : d ≠ '&' := by simpa [Token.isBare] using bare.head
    rw [reading_nucleus_literal, if_neg shown, yield_atom]
    exact accounts_token (.literal d) rfl more
termination_by 5 * ts.length
decreasing_by
  all_goals (simp only [List.length_cons]; omega)

theorem accounts_sequence (symbol : c ∉ ['{', '}', '_', '^']) (ts : List Token) (bare : Bare ts) :
    Accounts c (yieldAll (reading (sequence (fun _ => false) ts)).1) ts
      (reading (sequence (fun _ => false) ts)).2 := by
  match ts with
  | [] => rw [reading_sequence_nil, yieldAll]; exact .refl
  | token :: more =>
    by_cases close : token = .closeGroup
    · rw [close, reading_sequence_stop more (.inl rfl), yieldAll]
      exact .refl
    · have left := length_reading (expression (token :: more))
      have step : itemStep (token :: more) = 1 := itemStep_cons close
      rw [reading_sequence_cons more (by simpa using close), yieldAll]
      exact (accounts_expression symbol (token :: more) bare).trans
        (accounts_sequence symbol _ (bare.suffix (suffix_expression (token :: more))))
termination_by 5 * ts.length + 2
decreasing_by
  all_goals omega

theorem accounts_expression (symbol : c ∉ ['{', '}', '_', '^']) (ts : List Token) (bare : Bare ts) :
    Accounts c (reading (expression ts)).1.yield ts (reading (expression ts)).2 := by
  by_cases h : startsScript ts = true
  · rw [reading_expression_of_script h]
    have account := accounts_scripts symbol .empty ts bare
    rw [Expr.empty, yieldWithout_plain, ← Expr.empty, yield_empty, List.count_nil] at account
    rw [Accounts]
    omega
  · have left := length_reading (nucleus ts)
    rw [reading_expression (by simpa using h)]
    have base := accounts_nucleus symbol ts bare
    have account := accounts_scripts symbol (reading (nucleus ts)).1 _ (bare.suffix (suffix_nucleus ts))
    obtain ⟨n, plain⟩ := exists_plain_nucleus bare
    rw [plain, yieldWithout_plain] at account
    rw [plain] at base ⊢
    rw [Accounts] at *
    omega
termination_by 5 * ts.length + 1
decreasing_by
  all_goals omega

/-- Scripts are put on an expression that may have scripts; what it keeps of them is accounted for too. -/
theorem accounts_scripts (symbol : c ∉ ['{', '}', '_', '^']) (e : Expr) (ts : List Token) (bare : Bare ts) :
    (reading (scripts e ts)).1.yield.count c + countChar c (overwritten ts) +
        countChar c (reading (scripts e ts)).2 =
      (e.yieldWithout (scriptMarks ts)).count c + countChar c ts +
        countChar c (overwritten (reading (scripts e ts)).2) := by
  by_cases ends : endsScripts ts = true
  · simp only [reading_scripts_end e ends, scriptMarks_of_endsScripts ends, yieldWithout_nil]
    omega
  · match ts with
    | [] => exact absurd rfl ends
    | token :: more =>
      have mark := bare.startsScript ends
      have left := length_reading (nucleus more)
      have argument := accounts_nucleus symbol more bare.tail
      have later := accounts_scripts symbol (e.withScript token (reading (nucleus more)).1) _
        (bare.tail.suffix (suffix_nucleus more))
      -- Where its mark comes again, the argument is neither in what is kept of `e` nor in the final text.
      rw [count_yieldWithout_withScript mark] at later
      rw [rest_nucleus more bare.tail] at argument later
      rw [reading_scripts_mark mark, scriptMarks_cons mark, rest_nucleus more bare.tail]
      have account := accounts_script symbol mark more argument
      rw [Accounts] at account
      omega
termination_by 5 * ts.length
decreasing_by
  all_goals (simp only [List.length_cons]; omega)

end

theorem accounts_formulaItems (symbol : c ∉ ['{', '}', '_', '^']) (ts : List Token) (bare : Bare ts) :
    Accounts c (yieldAll (formulaItems ts)) ts [] := by
  match ts with
  | [] => rw [formulaItems_nil, yieldAll]; exact .refl
  | token :: more =>
    by_cases close : token = .closeGroup
    · rw [close, formulaItems_closeGroup]
      exact (accounts_brace symbol (.inr rfl) more).trans (accounts_formulaItems symbol more bare.tail)
    · have left := length_reading (expression (token :: more))
      have step : itemStep (token :: more) = 1 := itemStep_cons close
      rw [formulaItems_cons more close, yieldAll]
      exact (accounts_expression symbol (token :: more) bare).trans
        (accounts_formulaItems symbol _ (bare.suffix (suffix_expression (token :: more))))
termination_by ts.length
decreasing_by
  all_goals (simp only [List.length_cons] at *; omega)

end Grammar

/-! ## From the source to the text of the markup -/

/-- Only blanks are in no token. -/
theorem countChar_tokenize {c : Char} (visible : isBlank c = false) (t : Text) :
    countChar c (tokenize t) = t.count c := by
  have gap {gap : Text} (blanks : ∀ d ∈ gap, isBlank d = true) : gap.count c = 0 :=
    List.count_eq_zero.2 fun hc => by simp [blanks c hc] at visible
  have munches := munches_tokenize t
  generalize tokenize t = ts at munches
  induction munches with
  | blank blanks => rw [gap blanks]; rfl
  | token blanks _ _ ih =>
    rw [countChar_cons, List.count_append, List.count_append, gap blanks, ih]
    omega

/-- A text without backslashes and ampersands is cut into bare tokens. -/
theorem bare_tokenize {t : Text} (command : '\\' ∉ t) (alignment : '&' ∉ t) : Bare (tokenize t) := by
  intro token htoken
  have inside := (text_of_mem_tokenize htoken).2
  cases token with
  | command name => exact absurd (inside (by simp [Token.text])) command
  | literal c =>
    have shown : c ≠ '&' := by
      rintro rfl
      exact alignment (inside (by simp [Token.text]))
    simpa [Token.isBare] using shown
  | _ => rfl

/-- Every symbol of a formula without commands and alignment marks is in the text of its markup as often as
it was written, except in scripts that are overwritten. -/
theorem count_textContent_parse {source : Text} (command : '\\' ∉ source) (alignment : '&' ∉ source) :
    ∃ nodes, (parse source).markup = .ok nodes ∧
      ∀ c, isBlank c = false → c ∉ ['{', '}', '_', '^'] →
        (Omml.formula nodes).textContent.count c +
          ((overwritten (tokenize source)).flatMap Token.text).count c = source.count c := by
  obtain ⟨nodes, printed, _⟩ := succeeds_markup_parse source
  refine ⟨nodes, printed, fun c visible symbol => ?_⟩
  have account := accounts_formulaItems symbol (tokenize source) (bare_tokenize command alignment)
  have text : (Omml.formula nodes).textContent = yieldAll (formulaItems (tokenize source)) := by
    rw [Omml.textContent_formula, textContentAll_markup _ printed, parse, parseTokens, yield_plain, Nucleus.yield]
  rw [Accounts, countChar_tokenize visible, overwritten] at account
  rw [text]
  simpa [countChar] using account

/-- A subscript with repeated scripts inside is itself overwritten, and the last group is left open. -/
theorem count_textContent_parse_nested :
    '\\' ∉ "a_\x7bb_c_a\x7d^a_b\x7d \x7ba".toList ∧ '&' ∉ "a_\x7bb_c_a\x7d^a_b\x7d \x7ba".toList ∧
      ∃ nodes, (parse "a_\x7bb_c_a\x7d^a_b\x7d \x7ba".toList).markup = .ok nodes ∧
        (Omml.formula nodes).textContent.count 'a' = 3 := by
  have command : '\\' ∉ "a_\x7bb_c_a\x7d^a_b\x7d \x7ba".toList := by decide
  have alignment : '&' ∉ "a_\x7bb_c_a\x7d^a_b\x7d \x7ba".toList := by decide
  obtain ⟨nodes, printed, counts⟩ := count_textContent_parse command alignment
  have lost : ((overwritten (tokenize "a_\x7bb_c_a\x7d^a_b\x7d \x7ba".toList)).flatMap Token.text).count 'a' =
      1 := by decide +kernel
  have written : "a_\x7bb_c_a\x7d^a_b\x7d \x7ba".toList.count 'a' = 4 := by decide
  have count := counts 'a' (by decide) (by decide)
  exact ⟨command, alignment, nodes, printed, by omega⟩

/-- Of two subscripts on one base the first is not printed. -/
theorem count_textContent_parse_repeated :
    ∃ nodes, (parse "x_a_b".toList).markup = .ok nodes ∧
      (Omml.formula nodes).textContent.count 'a' = 0 ∧ "x_a_b".toList.count 'a' = 1 := by
  refine (succeeds_markup_parse _).imp fun nodes printed => ⟨printed.1, ?_, by decide⟩
  rw [Omml.textContent_formula, textContentAll_markup _ printed.1]
  decide +kernel

end OfficeFormula.Latex
