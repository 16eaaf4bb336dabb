import OfficeFormula.Latex.Command
import OfficeFormula.Latex.Expr
import OfficeFormula.Latex.Token

/-!
# The grammar of LaTeX math

A recursive-descent parser that accepts every list of tokens. What is broken is read as far as it
goes: a missing closing brace is supplied at the end, a surplus one is skipped, and an unknown
command becomes its name.

Every function returns what is left of its tokens, together with the number of tokens it is sure to
have taken (`Left`). An expression takes at least one token unless the tokens are used up or begin
with a closing brace (`itemStep`), so that every loop ends. What is left also says how deep the
reading went: not all that is read is part of the expression, so this cannot be seen from the
expression itself.
-/

namespace OfficeFormula.Latex

/-- What is left of `ts` after at least `n` of its tokens have been taken. -/
structure Left (n : Nat) (ts : List Token) where
  rest : List Token
  /-- How many items stood inside one another in what has been taken, at most. -/
  depth : Nat
  bound : rest.length + n ≤ ts.length

theorem Left.bound_refl (ts : List Token) : ts.length + 0 ≤ ts.length := Nat.le_refl _

theorem Left.bound_trans {ts rest rest' : List Token} (h : rest.length + 0 ≤ ts.length)
    (h' : rest'.length + 0 ≤ rest.length) : rest'.length + 0 ≤ ts.length :=
  Nat.le_trans h' h

/-- The tokens begin with the mark of a script. -/
def startsScript : List Token → Bool
  | .subscript :: _ | .superscript :: _ => true
  | _ => false

/-- The tokens begin with an opening brace. -/
def startsGroup : List Token → Bool
  | .openGroup :: _ => true
  | _ => false

/-- The number of tokens that a run of scripts is sure to take. -/
def scriptStep (ts : List Token) : Nat := if startsScript ts then 1 else 0

/-- The number of tokens that a nucleus is sure to take. -/
def nucleusStep : List Token → Nat
  | [] | .closeGroup :: _ | .subscript :: _ | .superscript :: _ => 0
  | _ => 1

/-- The number of tokens that an expression is sure to take. -/
def itemStep : List Token → Nat
  | [] | .closeGroup :: _ => 0
  | _ => 1

theorem itemStep_le_one (ts : List Token) : itemStep ts ≤ 1 := by
  unfold itemStep; split <;> simp

theorem itemStep_cons {token : Token} {more : List Token} (h : token ≠ .closeGroup) :
    itemStep (token :: more) = 1 := by
  cases token <;> simp_all [itemStep]

theorem itemStep_eq_nucleusStep {ts : List Token} (h : ¬startsScript ts = true) :
    itemStep ts = nucleusStep ts := by
  unfold startsScript at h
  unfold itemStep nucleusStep
  split <;> split <;> simp_all

/-- The tokens without the closing brace they may begin with. -/
def skipClose : List Token → List Token
  | .closeGroup :: more => more
  | ts => ts

theorem length_skipClose_le (ts : List Token) : (skipClose ts).length ≤ ts.length := by
  unfold skipClose; split <;> simp

/-- The tokens begin with the bracket that opens a degree. -/
def startsDegree : List Token → Bool
  | .operator '[' :: _ => true
  | _ => false

/-- The tokens without the bracket that closes a degree, if they begin with one. -/
def skipDegreeEnd : List Token → List Token
  | .operator ']' :: more => more
  | ts => ts

theorem length_skipDegreeEnd_le (ts : List Token) : (skipDegreeEnd ts).length ≤ ts.length := by
  unfold skipDegreeEnd; split <;> simp

/-- A part of the body of an environment. -/
inductive Piece where
  | item (e : Expr)
  | cellBreak
  | rowBreak

/-- The cells of each row of a body. There is always at least one row, and one cell in each. -/
def rowsOfPieces : List Piece → List (List (List Expr))
  | [] => [[[]]]
  | .item e :: ps =>
    match rowsOfPieces ps with
    | (cell :: cells) :: rows => ((e :: cell) :: cells) :: rows
    | rows => rows
  | .cellBreak :: ps =>
    match rowsOfPieces ps with
    | cells :: rows => ([] :: cells) :: rows
    | [] => []
  | .rowBreak :: ps => [[]] :: rowsOfPieces ps

/-- Nothing but one empty cell: what a row break just before the end of a body leaves behind. -/
def isBlankRow : List (List Expr) → Bool
  | [[]] => true
  | _ => false

/-- The rows without a blank last one, unless it is the only one. -/
def dropBlankLastRow (rows : List (List (List Expr))) : List (List (List Expr)) :=
  if rows.length > 1 && (rows.getLast?.any isBlankRow) then rows.dropLast else rows

/-- The name in braces after the opening or closing of an environment; empty if no brace follows. -/
def environmentName (ts : List Token) : String × Left 0 ts :=
  match ts with
  | .openGroup :: more =>
    let named := more.takeWhile (· ≠ .closeGroup)
    (String.ofList (named.flatMap Token.text),
      ⟨more.drop (named.length + 1), 0, by simp; omega⟩)
  | ts => ("", ⟨ts, 0, by simp⟩)

/-- The token after an opening or closing delimiter command. A point stands for no delimiter. -/
def delimiterGlyph : Token → Text
  | .command name =>
    match role name with
    | .symbol glyph | .relation glyph => [glyph]
    | _ => name.toList
  | token => token.text

/-- The delimiter that the next token, whatever it is, stands for. -/
def delimiter (ts : List Token) : Expr × Left 0 ts :=
  match ts with
  | [] => (.empty, ⟨[], 0, by simp⟩)
  | token :: more =>
    let glyph := delimiterGlyph token
    (if glyph = [] ∨ glyph = ['.'] then .empty else .atom .delimiter glyph, ⟨more, 0, by simp⟩)

mutual

/-- A nucleus and the scripts after it. -/
def expression (ts : List Token) : Expr × Left (itemStep ts) ts :=
  if h : startsScript ts = true then
    let (e, ⟨rest, d, hr⟩) := scripts .empty ts
    (e, ⟨rest, d, by
      simp only [scriptStep, h, if_true] at hr
      have := itemStep_le_one ts
      omega⟩)
  else
    let (e, ⟨rest, d, hr⟩) := nucleus ts
    let (e', ⟨rest', d', hr'⟩) := scripts e rest
    (e', ⟨rest', max d d', by rw [itemStep_eq_nucleusStep h]; omega⟩)
termination_by 5 * ts.length + 1

/-- One item without scripts. Nothing is taken where a script or a closing brace stands. -/
def nucleus (ts : List Token) : Expr × Left (nucleusStep ts) ts :=
  match ts with
  | [] => (.empty, ⟨[], 0, by simp [nucleusStep]⟩)
  | .closeGroup :: more => (.empty, ⟨.closeGroup :: more, 0, by simp [nucleusStep]⟩)
  | .subscript :: more => (.empty, ⟨.subscript :: more, 0, by simp [nucleusStep]⟩)
  | .superscript :: more => (.empty, ⟨.superscript :: more, 0, by simp [nucleusStep]⟩)
  | .openGroup :: more =>
    let (e, ⟨rest, d, hr⟩) := group more
    (e, ⟨rest, d + 1, by simp [nucleusStep]; omega⟩)
  | .command name :: more =>
    let (e, ⟨rest, d, hr⟩) := command name more
    (e, ⟨rest, d + 1, by simp [nucleusStep]; omega⟩)
  | .number digits :: more => (.atom .number digits, ⟨more, 0, by simp [nucleusStep]⟩)
  | .operator c :: more => (.atom .operator [c], ⟨more, 0, by simp [nucleusStep]⟩)
  | .literal c :: more =>
    (if c = '&' then .empty else .atom .text [c], ⟨more, 0, by simp [nucleusStep]⟩)
termination_by 5 * ts.length

/-- The rest of a sequence in braces, whose opening brace has been taken. -/
def group (ts : List Token) : Expr × Left 0 ts :=
  let (items, ⟨rest, d, hr⟩) := sequence (fun _ => false) ts
  (.group items, ⟨skipClose rest, d, by have := length_skipClose_le rest; omega⟩)
termination_by 5 * ts.length + 3

/-- Expressions up to a closing brace, a token that `stop` accepts, or the end. -/
def sequence (stop : Token → Bool) (ts : List Token) : List Expr × Left 0 ts :=
  match ts with
  | [] => ([], ⟨[], 0, Nat.le_refl _⟩)
  | token :: more =>
    if h : token = .closeGroup ∨ stop token = true then ([], ⟨token :: more, 0, Nat.le_refl _⟩)
    else
      let (e, ⟨rest, d, hr⟩) := expression (token :: more)
      have hlt : rest.length < more.length + 1 := by
        rw [itemStep_cons fun he => h (.inl he), List.length_cons] at hr; omega
      let (es, ⟨rest', d', hr'⟩) := sequence stop rest
      (e :: es, ⟨rest', max d d', by rw [List.length_cons]; omega⟩)
termination_by 5 * ts.length + 2

/-- What follows a command counts as its argument: a sequence in braces, or one item. -/
def argument (ts : List Token) : Expr × Left 0 ts :=
  let (e, ⟨rest, d, hr⟩) := nucleus ts
  (e, ⟨rest, d, by omega⟩)
termination_by 5 * ts.length + 1

/-- The scripts at the head of the tokens, put on `e`. Of several of one kind the last counts. -/
def scripts (e : Expr) (ts : List Token) : Expr × Left (scriptStep ts) ts :=
  match ts with
  | .subscript :: more =>
    let (arg, ⟨rest, d, hr⟩) := argument more
    let (e', ⟨rest', d', hr'⟩) := scripts (e.withSub arg) rest
    (e', ⟨rest', max d d', by simp [scriptStep, startsScript]; omega⟩)
  | .superscript :: more =>
    let (arg, ⟨rest, d, hr⟩) := argument more
    let (e', ⟨rest', d', hr'⟩) := scripts (e.withSup arg) rest
    (e', ⟨rest', max d d', by simp [scriptStep, startsScript]; omega⟩)
  | .command name :: more =>
    if limitModifiers.contains name then
      let (e', ⟨rest', d', hr'⟩) := scripts e more
      (e', ⟨rest', d', by simp [scriptStep, startsScript]; omega⟩)
    else (e, ⟨.command name :: more, 0, by simp [scriptStep, startsScript]⟩)
  | [] => (e, ⟨[], 0, by simp [scriptStep, startsScript]⟩)
  | .literal c :: more => (e, ⟨.literal c :: more, 0, by simp [scriptStep, startsScript]⟩)
  | .number digits :: more => (e, ⟨.number digits :: more, 0, by simp [scriptStep, startsScript]⟩)
  | .operator c :: more => (e, ⟨.operator c :: more, 0, by simp [scriptStep, startsScript]⟩)
  | .openGroup :: more => (e, ⟨.openGroup :: more, 0, by simp [scriptStep, startsScript]⟩)
  | .closeGroup :: more => (e, ⟨.closeGroup :: more, 0, by simp [scriptStep, startsScript]⟩)
termination_by 5 * ts.length

/-- The meaning of a command, with what follows its name. -/
def command (name : String) (ts : List Token) : Expr × Left 0 ts :=
  match role name with
  | .fraction =>
    let (num, ⟨rest, d, hr⟩) := argument ts
    let (den, ⟨rest', d', hr'⟩) := argument rest
    ((Nucleus.frac num den).plain, ⟨rest', max d d', Left.bound_trans hr hr'⟩)
  | .root => root ts
  | .delimiter => delimiter ts
  | .beginEnvironment => environment ts
  | .endEnvironment => (.empty, (environmentName ts).2)
  | .bigOperator glyph => ((Nucleus.nary [glyph]).plain, ⟨ts, 0, Left.bound_refl ts⟩)
  | .symbol glyph => (.atom .symbol [glyph], ⟨ts, 0, Left.bound_refl ts⟩)
  | .relation glyph => (.atom .operator [glyph], ⟨ts, 0, Left.bound_refl ts⟩)
  | .font => argument ts
  | .silent => (.empty, ⟨ts, 0, Left.bound_refl ts⟩)
  | .wideSpace => (.atom .text [' '], ⟨ts, 0, Left.bound_refl ts⟩)
  | .unknown => (if name = "" then .empty else .atom .text name.toList, ⟨ts, 0, Left.bound_refl ts⟩)
termination_by 5 * ts.length + 4

/-- A root: a degree in brackets makes it a general one. -/
def root (ts : List Token) : Expr × Left 0 ts :=
  if startsDegree ts then
    let (degree, ⟨rest, d, hr⟩) := sequence (· = .operator ']') (ts.drop 1)
    have hle := length_skipDegreeEnd_le rest
    have hdrop : (ts.drop 1).length ≤ ts.length := by simp
    let (base, ⟨rest', d', hr'⟩) := argument (skipDegreeEnd rest)
    ((Nucleus.radical base (some (.group degree))).plain, ⟨rest', max d d', by omega⟩)
  else
    let (base, rest) := argument ts
    ((Nucleus.sqrt base).plain, rest)
termination_by 5 * ts.length + 3

/-- The column specification of an environment that has one. -/
def columnSpec (name : String) (ts : List Token) : Left 0 ts :=
  if columnSpecEnvironments.contains name && startsGroup ts then (argument ts).2
  else ⟨ts, 0, Left.bound_refl ts⟩
termination_by 5 * ts.length + 2

/-- An environment, from its name to its end. -/
def environment (ts : List Token) : Expr × Left 0 ts :=
  let (name, ⟨named, _, hn⟩) := environmentName ts
  let ⟨columns, d, hc⟩ := columnSpec name named
  let (pieces, ⟨rest, d', hr⟩) := body columns
  let rows := dropBlankLastRow (rowsOfPieces pieces)
  ((Nucleus.environment name (rows.map (·.map .group))).plain, ⟨rest, max d d', by omega⟩)
termination_by 5 * ts.length + 3

/-- The body of an environment, and its end if there is one. -/
def body (ts : List Token) : List Piece × Left 0 ts :=
  match ts with
  | [] => ([], ⟨[], 0, Nat.le_refl _⟩)
  | token :: more =>
    if h : token = .closeGroup then ([], ⟨token :: more, 0, Nat.le_refl _⟩)
    else if token = .command "end" then
      let (_, ⟨rest, _, hr⟩) := environmentName more
      ([], ⟨rest, 0, by rw [List.length_cons]; omega⟩)
    else if token = .literal '&' then
      let (ps, ⟨rest, d, hr⟩) := body more
      (.cellBreak :: ps, ⟨rest, d, by rw [List.length_cons]; omega⟩)
    else if token = .command rowBreakName then
      let (ps, ⟨rest, d, hr⟩) := body more
      (.rowBreak :: ps, ⟨rest, d, by rw [List.length_cons]; omega⟩)
    else
      let (e, ⟨rest, d, hr⟩) := expression (token :: more)
      have hlt : rest.length < more.length + 1 := by
        rw [itemStep_cons h, List.length_cons] at hr; omega
      let (ps, ⟨rest', d', hr'⟩) := body rest
      (.item e :: ps, ⟨rest', max d d', by rw [List.length_cons]; omega⟩)
termination_by 5 * ts.length + 2

end

/-- The expressions of a whole formula. A closing brace with nothing to close is skipped. -/
def formulaItems (ts : List Token) : List Expr :=
  match ts with
  | [] => []
  | token :: more =>
    if h : token = .closeGroup then formulaItems more
    else
      let (e, ⟨rest, _, hr⟩) := expression (token :: more)
      have : rest.length < more.length + 1 := by
        rw [itemStep_cons h, List.length_cons] at hr; omega
      e :: formulaItems rest
termination_by ts.length

/-- How many items stand inside one another in a whole formula, at most. -/
def nesting (ts : List Token) : Nat :=
  match ts with
  | [] => 0
  | token :: more =>
    if h : token = .closeGroup then nesting more
    else
      let (_, ⟨rest, d, hr⟩) := expression (token :: more)
      have : rest.length < more.length + 1 := by
        rw [itemStep_cons h, List.length_cons] at hr; omega
      max d (nesting rest)
termination_by ts.length

/-- The expression that a list of tokens spells. -/
def parseTokens (ts : List Token) : Expr := (Nucleus.root (formulaItems ts)).plain

/-- The expression that a formula spells. -/
def parse (formula : Text) : Expr := parseTokens (tokenize formula)

end OfficeFormula.Latex
