import Mathlib.Data.List.Chain
import OfficeFormula.Proofs.Text.Search
import OfficeFormula.Proofs.Text.Words
import OfficeFormula.Report.Wrap

/-!
# Lines in pieces

The loop that wraps a text goes from cut to cut, and a cut is at a newline or at the width. What it gives is
told line by line: `linePieces` cuts one line by its length alone, and the pieces of a text are those of its
lines one after the other (`wrap_eq`). That nothing is lost, and how the pieces are numbered and marked, is
then read off line by line (`exists_wrap_splits`).
-/

namespace OfficeFormula.Report

/-! ## Lines of a text -/

/-- How many lines a text has. A newline at its end begins no further one. -/
def lineCount (t : Text) : Nat :=
  (Text.lines t).length - if t ≠ [] ∧ t.getLast? = some '\n' then 1 else 0

/-- The lines of a text that are numbered. -/
def numberedLines (t : Text) : List Text := (Text.lines t).take (lineCount t)

theorem length_lines_pos (t : Text) : 0 < (Text.lines t).length :=
  List.length_pos_iff.2 (Text.lines_ne_nil t)

/-- After a newline at the end of a text no line is left. -/
theorem numberedLines_newline {line : Text} (within : '\n' ∉ line) : numberedLines (line ++ ['\n']) = [line] := by
  have lines : Text.lines (line ++ ['\n']) = [line, []] := Text.lines_append_newline within []
  have count : lineCount (line ++ ['\n']) = 1 := by simp [lineCount, lines]
  rw [numberedLines, count, lines]
  rfl

theorem numberedLines_append_newline {line rest : Text} (within : '\n' ∉ line) (more : rest ≠ []) :
    numberedLines (line ++ '\n' :: rest) = line :: numberedLines rest := by
  have lines := Text.lines_append_newline within rest
  have last : (line ++ '\n' :: rest).getLast? = rest.getLast? := by
    rw [List.getLast?_append_of_ne_nil _ (List.cons_ne_nil _ _), List.getLast?_cons,
      List.getLast?_eq_some_getLast more]
    rfl
  have count : lineCount (line ++ '\n' :: rest) = lineCount rest + 1 := by
    have pos := length_lines_pos rest
    simp only [lineCount, lines, last, List.length_cons]
    split
    · next h => rw [if_pos ⟨more, h.2⟩]; omega
    · next h => rw [if_neg fun h' => h ⟨by simp, h'.2⟩]; omega
  rw [numberedLines, count, lines, List.take_succ_cons, numberedLines]

theorem numberedLines_of_not_mem {line : Text} (within : '\n' ∉ line) : numberedLines line = [line] := by
  have count : lineCount line = 1 := by
    have last : line.getLast? ≠ some '\n' := fun h => within (List.mem_of_getLast? h)
    rw [lineCount, Text.lines_of_not_mem within, if_neg fun h => last h.2]
    rfl
  rw [numberedLines, count, Text.lines_of_not_mem within]
  rfl

/-- A stretch without newlines at the head of a text belongs to its first line. -/
theorem numberedLines_append {stretch t l : Text} {ls : List Text} (within : '\n' ∉ stretch) (more : t ≠ [])
    (h : numberedLines t = l :: ls) : numberedLines (stretch ++ t) = (stretch ++ l) :: ls := by
  obtain ⟨l', ls', lines⟩ := List.exists_cons_of_ne_nil (Text.lines_ne_nil t)
  have longer := Text.lines_append within lines
  have last : (stretch ++ t).getLast? = t.getLast? := List.getLast?_append_of_ne_nil _ more
  have count : lineCount (stretch ++ t) = lineCount t := by
    simp [lineCount, lines, longer, last, more]
  rw [numberedLines, lines] at h
  rw [numberedLines, count, longer]
  cases n : lineCount t with
  | zero => simp [n] at h
  | succ n =>
    rw [n, List.take_succ_cons, List.cons.injEq] at h
    rw [List.take_succ_cons, h.1, h.2]

/-- The first line is what stands before the first newline. -/
theorem exists_numberedLines (t : Text) : ∃ ls, numberedLines t = t.takeWhile (· ≠ '\n') :: ls := by
  by_cases broken : '\n' ∈ t
  · obtain ⟨line, rest, rfl, within⟩ := List.eq_append_cons_of_mem broken
    rw [Text.takeWhile_ne_append_cons within]
    by_cases more : rest = []
    · exact ⟨[], more ▸ numberedLines_newline within⟩
    · exact ⟨_, numberedLines_append_newline within more⟩
  · exact ⟨[], by rw [Text.takeWhile_ne_eq_self broken, numberedLines_of_not_mem broken]⟩

/-! ## Pieces of a line -/

/-- The pieces of a line. All but the last are as wide as can be. -/
def linePieces (width n : Nat) (start : Bool) (line : Text) : List Piece :=
  if 0 < width ∧ width < line.length then
    ⟨n, start, line.take width⟩ :: linePieces width n false (line.drop width)
  else [⟨n, start, line⟩]
termination_by line.length
decreasing_by simp only [List.length_drop]; omega

/-- The pieces of lines that are numbered from `n` on. -/
def piecesFrom (width n : Nat) : List Text → List Piece
  | [] => []
  | line :: lines => linePieces width n true line ++ piecesFrom width (n + 1) lines

section Line

variable {width n : Nat} {start : Bool} {line : Text}

theorem linePieces_of_le (short : line.length ≤ width) : linePieces width n start line = [⟨n, start, line⟩] := by
  rw [linePieces, if_neg (by omega)]

theorem linePieces_of_lt (pos : 0 < width) (long : width < line.length) :
    linePieces width n start line = ⟨n, start, line.take width⟩ :: linePieces width n false (line.drop width) := by
  rw [linePieces, if_pos ⟨pos, long⟩]

/-- The first piece carries the mark that the line was given. -/
theorem exists_linePieces (width n : Nat) (start : Bool) (line : Text) :
    ∃ t more, linePieces width n start line = ⟨n, start, t⟩ :: more := by
  rw [linePieces]
  split
  · exact ⟨_, _, rfl⟩
  · exact ⟨_, _, rfl⟩

theorem lineNumber_of_mem_linePieces {p : Piece} (h : p ∈ linePieces width n start line) : p.lineNumber = n := by
  fun_induction linePieces width n start line with
  | case1 start line long ih =>
    rcases List.mem_cons.1 h with rfl | h
    · rfl
    · exact ih h
  | case2 start line short => rw [List.mem_singleton.1 h]

theorem flatMap_text_linePieces : (linePieces width n start line).flatMap Piece.text = line := by
  fun_induction linePieces width n start line with
  | case1 start line long ih => rw [List.flatMap_cons, ih, List.take_append_drop]
  | case2 start line short => simp

theorem length_text_of_mem_linePieces (pos : 0 < width) {p : Piece} (h : p ∈ linePieces width n start line) :
    p.text.length ≤ width := by
  fun_induction linePieces width n start line with
  | case1 start line long ih =>
    rcases List.mem_cons.1 h with rfl | h
    · exact List.length_take_le ..
    · exact ih h
  | case2 start line short =>
    rw [List.mem_singleton.1 h]
    exact Nat.le_of_not_lt fun long => short ⟨pos, long⟩

/-- A line that fills its pieces has as many as it is wide. -/
theorem length_linePieces (pos : 0 < width) {k : Nat} (full : line.length = (k + 1) * width) :
    (linePieces width n start line).length = k + 1 := by
  induction k generalizing start line with
  | zero => rw [linePieces_of_le (by omega)]; rfl
  | succ k ih =>
    rw [Nat.succ_mul] at full
    have shorter : (line.drop width).length = (k + 1) * width := by rw [List.length_drop, full, Nat.add_sub_cancel]
    have long : width < line.length := by
      have left : 0 < (k + 1) * width := Nat.mul_pos (Nat.succ_pos k) pos
      omega
    rw [linePieces_of_lt pos long, List.length_cons, ih shorter]

/-- Only an empty line has an empty piece. -/
theorem text_ne_nil_of_mem_linePieces (ne : line ≠ []) {p : Piece} (h : p ∈ linePieces width n start line) :
    p.text ≠ [] := by
  fun_induction linePieces width n start line with
  | case1 start line long ih =>
    have left : line.drop width ≠ [] := by simpa using long.2
    have right : line.take width ≠ [] := by simp [ne, Nat.ne_of_gt long.1]
    rcases List.mem_cons.1 h with rfl | h
    · exact right
    · exact ih left h
  | case2 start line short => rwa [List.mem_singleton.1 h]

end Line

/-! ## Pieces of a text -/

theorem shortLine?_append_newline {width : Nat} {line : Text} (within : '\n' ∉ line) (rest : Text) :
    shortLine? width (line ++ '\n' :: rest) = if line.length ≤ width then some (line, rest) else none := by
  simp only [shortLine?, Text.takeWhile_ne_append_cons within, Int.ofNat_le, List.drop_left]

theorem shortLine?_of_not_mem {width : Nat} {t : Text} (within : '\n' ∉ t) : shortLine? width t = none := by
  simp only [shortLine?, Text.takeWhile_ne_eq_self within, List.drop_length, ite_self]

/-- A line that is cut at the width has no newline up to there, and none just behind. -/
theorem not_mem_take_of_shortLine? {width : Nat} {t : Text} (long : shortLine? width t = none) :
    '\n' ∉ t.take (width + 1) := by
  intro near
  obtain ⟨line, rest, rfl, within⟩ := List.eq_append_cons_of_mem (List.mem_of_mem_take near)
  rw [shortLine?_append_newline within] at long
  split at long
  · simp at long
  · next far =>
    rw [List.take_append_of_le_length (by omega)] at near
    exact within (List.mem_of_mem_take near)

/-- Cut after cut, the pieces are those of the lines. -/
theorem wrapFrom_eq {width : Nat} (pos : 0 < width) {n : Nat} {start : Bool} {t l : Text} {ls : List Text}
    (ne : t ≠ []) (lines : numberedLines t = l :: ls) :
    wrapFrom width n start t = some (linePieces width n start l ++ piecesFrom width (n + 1) ls) := by
  fun_induction wrapFrom (width : Int) n start t generalizing l ls with
  | case1 n start => exact absurd rfl ne
  | case2 n start t _ line rest short shorter ih =>
    by_cases broken : '\n' ∈ t
    · obtain ⟨line', rest', rfl, within⟩ := List.eq_append_cons_of_mem broken
      rw [shortLine?_append_newline within] at short
      split at short
      · next fits =>
        obtain ⟨rfl, rfl⟩ : line' = line ∧ rest' = rest := by simpa using short
        by_cases more : rest' = []
        · subst more
          rw [numberedLines_newline within, List.cons.injEq] at lines
          obtain ⟨rfl, rfl⟩ := lines
          rw [wrapFrom, dif_pos rfl, linePieces_of_le fits]
          rfl
        · rw [numberedLines_append_newline within more, List.cons.injEq] at lines
          obtain ⟨rfl, rfl⟩ := lines
          obtain ⟨ls', lines'⟩ := exists_numberedLines rest'
          rw [ih more lines', lines', linePieces_of_le fits]
          rfl
      · simp at short
    · simp [shortLine?_of_not_mem broken] at short
  | case3 n start t _ long room shorter ih =>
    have within := not_mem_take_of_shortLine? long
    have stretch : '\n' ∉ t.take width := fun h => within (List.take_subset_take_left t (Nat.le_succ width) h)
    have whole := List.take_append_drop width t
    rw [Int.toNat_natCast] at ih ⊢
    by_cases more : t.drop width = []
    · rw [more, List.append_nil] at whole
      rw [whole] at stretch
      rw [numberedLines_of_not_mem stretch, List.cons.injEq] at lines
      obtain ⟨rfl, rfl⟩ := lines
      rw [more, wrapFrom, dif_pos rfl, linePieces_of_le (by simpa using more), whole]
      rfl
    · -- What is left begins with a character of the same line, so that line is longer than the width.
      obtain ⟨c, cs, left⟩ := List.exists_cons_of_ne_nil more
      have other : c ≠ '\n' := by
        rintro rfl
        rw [List.take_add, left] at within
        simp at within
      obtain ⟨ls', lines'⟩ := exists_numberedLines (t.drop width)
      have all := numberedLines_append stretch more lines'
      rw [whole, lines, List.cons.injEq] at all
      obtain ⟨rfl, rfl⟩ := all
      have full : (t.take width).length = width := by
        rw [List.length_take]
        have := List.length_pos_iff.2 more
        rw [List.length_drop] at this
        omega
      have longer : width < (t.take width ++ (t.drop width).takeWhile (· ≠ '\n')).length := by
        rw [List.length_append, full, left]
        simp [other]
      rw [ih more lines', linePieces_of_lt pos longer, List.take_left' full, List.drop_left' full]
      rfl
  | case4 n start t _ long none => omega

theorem wrap_eq {width : Nat} (pos : 0 < width) (t : Text) :
    wrap width t = some (piecesFrom width 1 (numberedLines t)) := by
  by_cases empty : t = []
  · subst empty
    have one : linePieces width 1 true [] = [⟨1, true, []⟩] := linePieces_of_le (Nat.zero_le _)
    rw [wrap, if_pos rfl, numberedLines_of_not_mem (by simp), piecesFrom, one]
    rfl
  · obtain ⟨ls, lines⟩ := exists_numberedLines t
    rw [wrap, if_neg empty, wrapFrom_eq pos empty lines, lines, piecesFrom]

/-! ## Numbers and marks -/

/-- The piece `q` goes on with the line of `p`, or begins the next one. -/
def Piece.Follows (p q : Piece) : Prop :=
  q.lineNumber = p.lineNumber ∧ q.startOfLine = false ∨ q.lineNumber = p.lineNumber + 1 ∧ q.startOfLine = true

theorem isChain_linePieces {width n : Nat} {start : Bool} {line : Text} :
    (linePieces width n start line).IsChain Piece.Follows := by
  fun_induction linePieces width n start line with
  | case1 start line long ih =>
    refine List.isChain_cons.2 ⟨fun q hq => .inl ?_, ih⟩
    obtain ⟨t, more, pieces⟩ := exists_linePieces width n false (line.drop width)
    rw [pieces] at hq
    obtain rfl := Option.some.inj hq
    exact ⟨rfl, rfl⟩
  | case2 start line short => exact .singleton _

theorem le_lineNumber_of_mem_piecesFrom {width n : Nat} {ls : List Text} {p : Piece}
    (h : p ∈ piecesFrom width n ls) : n ≤ p.lineNumber := by
  induction ls generalizing n with
  | nil => simp [piecesFrom] at h
  | cons line ls ih =>
    rcases List.mem_append.1 h with h | h
    · exact Nat.le_of_eq (lineNumber_of_mem_linePieces h).symm
    · exact Nat.le_of_succ_le (ih h)

theorem length_text_of_mem_piecesFrom {width n : Nat} (pos : 0 < width) {ls : List Text} {p : Piece}
    (h : p ∈ piecesFrom width n ls) : p.text.length ≤ width := by
  induction ls generalizing n with
  | nil => simp [piecesFrom] at h
  | cons line ls ih =>
    rcases List.mem_append.1 h with h | h
    · exact length_text_of_mem_linePieces pos h
    · exact ih h

/-- The first piece begins the first line. -/
theorem head?_piecesFrom (width n : Nat) (line : Text) (ls : List Text) :
    ∃ t, (piecesFrom width n (line :: ls)).head? = some ⟨n, true, t⟩ := by
  obtain ⟨t, more, pieces⟩ := exists_linePieces width n true line
  exact ⟨t, by rw [piecesFrom, pieces]; rfl⟩

theorem isChain_piecesFrom {width n : Nat} {ls : List Text} :
    (piecesFrom width n ls).IsChain Piece.Follows := by
  induction ls generalizing n with
  | nil => exact .nil
  | cons line ls ih =>
    refine isChain_linePieces.append ih fun p hp q hq => .inr ?_
    cases ls with
    | nil => simp [piecesFrom] at hq
    | cons line' ls =>
      obtain ⟨t, first⟩ := head?_piecesFrom width (n + 1) line' ls
      obtain rfl := Option.some.inj (first.symm.trans hq)
      rw [lineNumber_of_mem_linePieces (List.mem_of_getLast? hp)]
      exact ⟨rfl, rfl⟩

/-- The pieces with the number of a line are the pieces of that line. -/
theorem filter_piecesFrom (width n : Nat) {i : Nat} {ls : List Text} {line : Text} (h : ls[i]? = some line) :
    (piecesFrom width n ls).filter (·.lineNumber = n + i) = linePieces width (n + i) true line := by
  induction ls generalizing n i with
  | nil => simp at h
  | cons first ls ih =>
    rw [piecesFrom, List.filter_append]
    cases i with
    | zero =>
      obtain rfl := Option.some.inj h
      have here : (linePieces width n true first).filter (·.lineNumber = n + 0) = linePieces width n true first :=
        List.filter_eq_self.2 fun p hp => by simpa using lineNumber_of_mem_linePieces hp
      have later : (piecesFrom width (n + 1) ls).filter (·.lineNumber = n + 0) = [] := by
        refine List.filter_eq_nil_iff.2 fun p hp => ?_
        have := le_lineNumber_of_mem_piecesFrom hp
        simp only [decide_eq_true_eq]
        omega
      rw [here, later, List.append_nil]
      rfl
    | succ i =>
      have other : (linePieces width n true first).filter (·.lineNumber = n + (i + 1)) = [] := by
        refine List.filter_eq_nil_iff.2 fun p hp => ?_
        have := lineNumber_of_mem_linePieces hp
        simp only [decide_eq_true_eq]
        omega
      have number : n + (i + 1) = n + 1 + i := by omega
      rw [other, List.nil_append, number]
      exact ih (n + 1) h

/-- The last piece has the number of the last line. -/
theorem getLast?_piecesFrom {width n : Nat} {line : Text} {ls : List Text} :
    (piecesFrom width n (line :: ls)).getLast?.map Piece.lineNumber = some (n + ls.length) := by
  induction ls generalizing n line with
  | nil =>
    obtain ⟨t, more, pieces⟩ := exists_linePieces width n true line
    have ne : linePieces width n true line ≠ [] := by simp [pieces]
    rw [piecesFrom, piecesFrom, List.append_nil, List.getLast?_eq_some_getLast ne, Option.map_some,
      lineNumber_of_mem_linePieces (List.getLast_mem ne)]
    rfl
  | cons line' ls ih =>
    obtain ⟨t, first⟩ := head?_piecesFrom width (n + 1) line' ls
    have ne : piecesFrom width (n + 1) (line' :: ls) ≠ [] := by
      intro none
      simp [none] at first
    rw [piecesFrom, List.getLast?_append_of_ne_nil _ ne, ih, List.length_cons]
    congr 1
    omega

theorem pairwise_of_isChain {ps : List Piece} (chain : ps.IsChain Piece.Follows) :
    ps.Pairwise fun p q => p.lineNumber ≤ q.lineNumber := by
  have ordered : (ps.map Piece.lineNumber).IsChain (· ≤ ·) := by
    refine (List.isChain_map _).2 (chain.imp fun p q follows => ?_)
    rcases follows with ⟨same, _⟩ | ⟨next, _⟩
    · exact Nat.le_of_eq same.symm
    · exact next ▸ Nat.le_succ _
  exact List.pairwise_map.1 (List.isChain_iff_pairwise.1 ordered)

/-- A piece that begins its line is the first with that number, and only such a piece is. -/
theorem startOfLine_iff_of_isChain {ps before after : List Piece} {p : Piece} (chain : ps.IsChain Piece.Follows)
    (first : ∀ q ∈ ps.head?, q.startOfLine = true) (split : ps = before ++ p :: after) :
    p.startOfLine = true ↔ ∀ q ∈ before, q.lineNumber ≠ p.lineNumber := by
  subst split
  rcases List.eq_nil_or_concat' before with rfl | ⟨init, q, rfl⟩
  · exact iff_of_true (first p rfl) (by simp)
  · have follows : q.Follows p := by
      rw [List.append_assoc] at chain
      exact (List.isChain_cons_cons.1 chain.right_of_append).1
    have ordered := (List.pairwise_append.1 (pairwise_of_isChain chain)).1
    rcases follows with ⟨same, goesOn⟩ | ⟨next, begins⟩
    · refine iff_of_false (by simp [goesOn]) fun h => ?_
      exact h q (by simp) same.symm
    · refine iff_of_true begins fun r hr => ?_
      have below : r.lineNumber ≤ q.lineNumber := by
        rcases List.mem_append.1 hr with hr | hr
        · exact (List.pairwise_append.1 ordered).2.2 r hr q (by simp)
        · rw [List.mem_singleton.1 hr]
      omega

/-! ## What wrapping gives -/

/-- The pieces hold the lines of the text. -/
structure Splits (width : Nat) (t : Text) (ps : List Piece) : Prop where
  fits : ∀ p ∈ ps, p.text.length ≤ width
  first : ps.head?.map Piece.lineNumber = some 1
  last : ps.getLast?.map Piece.lineNumber = some (lineCount t)
  /-- Line numbers never decrease and none is left out. -/
  steps : ps.IsChain fun p q => q.lineNumber = p.lineNumber ∨ q.lineNumber = p.lineNumber + 1
  /-- The first piece of a line is marked, and no other one. -/
  starts : ∀ before p after, ps = before ++ p :: after →
    (p.startOfLine = true ↔ ∀ q ∈ before, q.lineNumber ≠ p.lineNumber)
  /-- Put together, the pieces of a line are the line. -/
  content : ∀ i line, i < lineCount t → (Text.lines t)[i]? = some line →
    (ps.filter (·.lineNumber = i + 1)).flatMap Piece.text = line
  /-- A line that fills its pieces has no further one. -/
  full : ∀ i line k, i < lineCount t → (Text.lines t)[i]? = some line → 0 < k → line.length = k * width →
    (ps.filter (·.lineNumber = i + 1)).length = k ∧ ∀ p ∈ ps, p.lineNumber = i + 1 → p.text ≠ []

/-- Where there is room for a character, wrapping ends and loses nothing. -/
theorem exists_wrap_splits {width : Nat} (pos : 0 < width) (t : Text) :
    ∃ ps, wrap width t = some ps ∧ Splits width t ps := by
  obtain ⟨ls, lines⟩ := exists_numberedLines t
  have line {i : Nat} {l : Text} (bound : i < lineCount t) (h : (Text.lines t)[i]? = some l) :
      (piecesFrom width 1 (numberedLines t)).filter (·.lineNumber = i + 1) = linePieces width (i + 1) true l := by
    have numbered : (numberedLines t)[i]? = some l := by rw [numberedLines, List.getElem?_take_of_lt bound, h]
    have pieces := filter_piecesFrom width 1 numbered
    rwa [Nat.add_comm] at pieces
  have count : lineCount t = ls.length + 1 := by
    have length := congrArg List.length lines
    rw [numberedLines, List.length_take, List.length_cons] at length
    have most : lineCount t ≤ (Text.lines t).length := Nat.sub_le ..
    omega
  obtain ⟨first, head⟩ := head?_piecesFrom width 1 (t.takeWhile (· ≠ '\n')) ls
  rw [← lines] at head
  refine ⟨_, wrap_eq pos t, ?_, ?_, ?_, ?_, ?_, ?_, ?_⟩
  · exact fun p hp => length_text_of_mem_piecesFrom pos hp
  · rw [head]
    rfl
  · rw [lines, getLast?_piecesFrom, count, Nat.add_comm]
  · exact isChain_piecesFrom.imp fun p q follows => follows.imp And.left And.left
  · intro before p after
    refine startOfLine_iff_of_isChain isChain_piecesFrom fun q hq => ?_
    obtain rfl := Option.some.inj (head.symm.trans hq)
    rfl
  · intro i l bound h
    rw [line bound h]
    exact flatMap_text_linePieces
  · intro i l k bound h some full
    obtain ⟨k, rfl⟩ := Nat.exists_eq_succ_of_ne_zero (Nat.ne_of_gt some)
    rw [line bound h]
    refine ⟨length_linePieces pos full, fun p hp number => ?_⟩
    have ne : l ≠ [] := by
      rintro rfl
      have := Nat.mul_pos (Nat.succ_pos k) pos
      rw [← full] at this
      simp at this
    have member : p ∈ linePieces width (i + 1) true l := by
      rw [← line bound h]
      exact List.mem_filter.2 ⟨hp, by simpa using number⟩
    exact text_ne_nil_of_mem_linePieces ne member

/-- A line of two full pieces, an empty line, and one with a rest. -/
theorem exists_wrap_splits_fullLine :
    0 < 2 ∧ wrap (2 : Nat) "abcd\n\nxyz\n".toList = some [
        ⟨1, true, "ab".toList⟩, ⟨1, false, "cd".toList⟩, ⟨2, true, []⟩, ⟨3, true, "xy".toList⟩,
        ⟨3, false, "z".toList⟩] ∧
      ∃ ps, wrap (2 : Nat) "abcd\n\nxyz\n".toList = some ps ∧ Splits 2 "abcd\n\nxyz\n".toList ps := by
  refine ⟨by decide, by decide +kernel, exists_wrap_splits (by decide) _⟩

end OfficeFormula.Report
