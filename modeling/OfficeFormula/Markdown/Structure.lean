import OfficeFormula.Markdown.Table

/-!
# The blocks of a document

Empty lines divide a document into chunks. A chunk is a table, or it is cut after indented lines of
code, at the first line that is a heading, at an underline, at a rule, or at the first quoted line;
a list or a paragraph takes the whole of a chunk. Code, quotes and lists that follow one another
grow together.
-/

namespace OfficeFormula.Markdown

/-- The line without up to three spaces at its head. -/
def unindent (line : Text) : Text := line.drop (min 3 (line.takeWhile (· = ' ')).length)

/-- The text ends with a backslash that is not itself after a backslash. -/
def endsWithEscape (t : Text) : Bool := (t.reverse.takeWhile (· = '\\')).length % 2 = 1

/-- A heading on one line: its level and its text. Number signs at its end are no part of it, the
one after a backslash apart. A line that ends with a single backslash is no heading. -/
def heading? (line : Text) : Option (Nat × Text) :=
  let level := min 6 (line.takeWhile (· = '#')).length
  if level = 0 then none
  else
    let body : Text := line.drop level
    let closing := (body.reverse.takeWhile (· = '#')).length
    let kept : Text := body.take (body.length - closing)
    if endsWithEscape kept then
      if closing = 0 then none else some (level, Text.trim (body.take (kept.length + 1)))
    else some (level, kept.trim)

/-- The level of the heading above a line that underlines it. -/
def underline? (line : Text) : Option Nat :=
  let marks := line.takeWhile fun c => c = '=' || c = '-'
  if marks ≠ [] && (line.drop marks.length).all (· = ' ') then
    some (if marks.head? = some '=' then 1 else 2)
  else none

/-- How often `c` stands in a line with at most two spaces between two of them, and nothing else. -/
def ruleMarks (c : Char) (gap : Nat) : Text → Option Nat
  | [] => some 0
  | d :: ds =>
    if d = c then if gap ≤ 2 then (ruleMarks c 0 ds).map (· + 1) else none
    else if d = ' ' then ruleMarks c (gap + 1) ds
    else none

/-- A rule: three or more equal marks. -/
def isRule (line : Text) : Bool :=
  match unindent line with
  | [] => false
  | c :: cs => (c = '-' || c = '_' || c = '*') && (ruleMarks c 0 (c :: cs)).any (3 ≤ ·)

/-- An item of a bulleted list. -/
def bulletItem? (line : Text) : Option Text :=
  match unindent line with
  | c :: ' ' :: rest =>
    if c = '*' || c = '+' || c = '-' then some (rest.dropWhile (· = ' ')) else none
  | _ => none

/-- An item of a numbered list, with its number. -/
def numberItem? (line : Text) : Option (Text × Text) :=
  let line := unindent line
  let number := line.takeWhile isDecimalDigit
  match line.drop number.length with
  | '.' :: ' ' :: rest =>
    if number = [] then none else some (number, rest.dropWhile (· = ' '))
  | _ => none

/-- The text of an item that a list of this kind can hold. -/
def itemText? (d : Dialect) (kind : ListKind) (line : Text) : Option Text :=
  let numbered := (numberItem? line).map (·.2)
  match d, kind with
  | .basic, _ => (bulletItem? line).or numbered
  | .extended, .bullets => bulletItem? line
  | .extended, .numbers _ => numbered

/-- The texts of the items that lines make up. A line that is no item goes on with the last one. -/
def itemTexts (d : Dialect) (kind : ListKind) (lines : List Text) : List Text :=
  let step (items : List Text) (line : Text) : List Text :=
    match itemText? d kind line, items with
    | some t, items => t :: items
    | none, t :: items => (t ++ '\n' :: line) :: items
    | none, [] => [line]
  (lines.foldl step []).reverse

/-- The kind of list that a line begins. -/
def listKind? (d : Dialect) (line : Text) : Option ListKind :=
  match numberItem? line with
  | some (number, _) =>
    some (.numbers (if d = .basic || number = ['1'] then none else some number))
  | none => (bulletItem? line).map fun _ => .bullets

/-- Lists grow together: in the extended dialect only those with the same kind of items. -/
def growTogether (d : Dialect) (a b : ListKind) : Bool :=
  d = .basic || a.isNumbered = b.isNumbered

/-- The blocks, the last one first, with one more list. If it grows together with a list before it,
the items on both sides of the empty line are loose. -/
def addList (d : Dialect) (kind : ListKind) (items : List Item) (done : List Block) : List Block :=
  match done with
  | .list kind' before :: rest =>
    if growTogether d kind' kind then
      let loosen (i : Item) : Item := { i with isLoose := !i.content.isEmpty }
      let before := before.take (before.length - 1) ++ (before.drop (before.length - 1)).map loosen
      .list kind' (before ++ (items.take 1).map loosen ++ items.drop 1) :: rest
    else .list kind items :: done
  | _ => .list kind items :: done

/-- A line without its mark of a quote. -/
def unquote? (line : Text) : Option Text :=
  match unindent line with
  | '>' :: ' ' :: rest | '>' :: rest => some rest
  | _ => none

/-- The number of characters in lines, with one more for each line. -/
def size : List Text → Nat
  | [] => 0
  | l :: ls => l.length + 1 + size ls

theorem size_append (as bs : List Text) : size (as ++ bs) = size as + size bs := by
  induction as with
  | nil => simp [size]
  | cons a as ih => simp [size, ih]; omega

theorem size_dropWhile_le (p : Text → Bool) (ls : List Text) : size (ls.dropWhile p) ≤ size ls := by
  have := size_append (ls.takeWhile p) (ls.dropWhile p)
  rw [List.takeWhile_append_dropWhile] at this
  omega

theorem length_unindent_le (line : Text) : (unindent line).length ≤ line.length := by
  simp [unindent]

theorem length_lt_of_unquote? {line rest : Text} (h : unquote? line = some rest) :
    rest.length < line.length := by
  have hl := length_unindent_le line
  unfold unquote? at h
  split at h
  · next more marked =>
    obtain rfl := Option.some.inj h
    rw [marked, List.length_cons, List.length_cons] at hl
    omega
  · next more _ marked =>
    obtain rfl := Option.some.inj h
    rw [marked, List.length_cons] at hl
    omega
  · cases h

/-- A line of a quote without its mark. A mark with nothing but blanks around it leaves an empty
line, and a line without a mark goes on with the quote. -/
def unquoted (line : Text) : Text := if line.trim = ['>'] then [] else (unquote? line).getD line

theorem length_unquoted_le (line : Text) : (unquoted line).length ≤ line.length := by
  unfold unquoted
  split
  · simp
  · cases h : unquote? line with
    | none => simp
    | some r =>
      have := length_lt_of_unquote? h
      simp only [Option.getD_some]
      omega

/-- The first line of a quote without its mark. -/
def startOfQuote? (line : Text) : Option Text := (unquote? line).map fun _ => unquoted line

/-- The lines of a quote without their marks. -/
def unquoteAll (ls : List Text) : List Text := ls.map unquoted

theorem size_unquoteAll_le (ls : List Text) : size (unquoteAll ls) ≤ size ls := by
  induction ls with
  | nil => simp [unquoteAll, size]
  | cons l ls ih =>
    have := length_unquoted_le l
    simp only [unquoteAll, List.map_cons, size] at ih ⊢
    omega

/-- The first line that `p` accepts: the lines before it, what `p` makes of it, and the lines after
it. -/
def firstLine? {α : Type} (p : Text → Option α) : List Text → Option (List Text × α × List Text)
  | [] => none
  | l :: ls =>
    match p l with
    | some a => some ([], a, ls)
    | none => (firstLine? p ls).map fun (before, a, after) => (l :: before, a, after)

theorem exists_of_firstLine? {α : Type} {p : Text → Option α} {ls before after : List Text} {a : α}
    (h : firstLine? p ls = some (before, a, after)) :
    ∃ l, p l = some a ∧ ls = before ++ l :: after := by
  induction ls generalizing before with
  | nil => simp [firstLine?] at h
  | cons l ls ih =>
    simp only [firstLine?] at h
    split at h
    · next a' ha =>
      simp only [Option.some.injEq, Prod.mk.injEq] at h
      obtain ⟨rfl, rfl, rfl⟩ := h
      exact ⟨l, ha, rfl⟩
    · simp only [Option.map_eq_some_iff, Prod.mk.injEq] at h
      obtain ⟨⟨before', a', after'⟩, hf, rfl, rfl, rfl⟩ := h
      obtain ⟨l', hl, rfl⟩ := ih hf
      exact ⟨l', hl, rfl⟩

theorem size_lt_of_firstLine? {α : Type} {p : Text → Option α} {ls before after : List Text} {a : α}
    (h : firstLine? p ls = some (before, a, after)) : size before + size after < size ls := by
  obtain ⟨l, -, rfl⟩ := exists_of_firstLine? h
  simp [size_append, size]

theorem length_lt_of_startOfQuote? {line rest : Text} (h : startOfQuote? line = some rest) :
    rest.length < line.length := by
  unfold startOfQuote? at h
  obtain ⟨r, hr, rfl⟩ := Option.map_eq_some_iff.1 h
  have := length_lt_of_unquote? hr
  unfold unquoted
  split
  · simp only [List.length_nil]
    omega
  · simpa [hr] using this

theorem size_lt_of_startOfQuote? {ls before after : List Text} {t : Text}
    (h : firstLine? startOfQuote? ls = some (before, t, after)) :
    size before + size (t :: unquoteAll after) < size ls := by
  obtain ⟨l, hl, rfl⟩ := exists_of_firstLine? h
  have h₁ := length_lt_of_startOfQuote? hl
  have h₂ := size_unquoteAll_le after
  simp only [size_append, size]
  omega

/-- What a chunk of lines is. The lines that are still to be read are smaller than the chunk, whose
size is `n`. -/
inductive Shape (n : Nat) where
  /-- Blanks only. -/
  | nothing
  /-- One block that takes the whole chunk. -/
  | whole (block : Block)
  /-- Lines of code without their indentation, and the lines after them. -/
  | code (lines after : List Text) (smaller : size after < n)
  | list (kind : ListKind) (items : List Item)
  /-- A block that lines stand before and after. -/
  | cut (before : List Text) (block : Block) (after : List Text)
      (smaller : size before + size after < n)
  /-- Lines before a quote, and the lines of the quote without their marks. -/
  | quote (before quoted : List Text) (smaller : size before + size quoted < n)

/-- The paragraph that lines make up. -/
def paragraphOf (d : Dialect) (lines : List Text) : Block :=
  .paragraph (phrase d (Text.join ['\n'] lines).trimStart)

/-- The items that lines make up. -/
def itemsOf (d : Dialect) (kind : ListKind) (lines : List Text) : List Item :=
  (itemTexts d kind lines).map fun t => ⟨false, phrase d t.trimStart⟩

/-- The heading that stands above an underline, and the lines after it. -/
def underlined? (d : Dialect) (lines : List Text) : Option (Block × List Text) :=
  match lines with
  | title :: under :: rest =>
    (underline? under).map fun level => (.heading level (phrase d title.trim), rest)
  | _ => none

theorem size_lt_of_underlined? {d : Dialect} {lines rest : List Text} {b : Block}
    (h : underlined? d lines = some (b, rest)) : size rest < size lines := by
  unfold underlined? at h
  split at h
  · simp only [Option.map_eq_some_iff, Prod.mk.injEq] at h
    obtain ⟨_, _, _, rfl⟩ := h
    simp only [size]
    omega
  · simp at h

/-- How far code is indented. -/
def codeIndent : Nat := 4

/-- A line of code. -/
def isIndented (line : Text) : Bool := Text.startsWith (List.replicate codeIndent ' ') line

theorem size_dropWhile_lt {p : Text → Bool} {lines : List Text}
    (h : lines.head?.any p = true) : size (lines.dropWhile p) < size lines := by
  cases lines with
  | nil => simp at h
  | cons l ls =>
    have hp : p l = true := by simpa using h
    have := size_dropWhile_le p ls
    simp only [List.dropWhile_cons, hp, if_true, size]
    omega

/-- What lines without an empty one among them are. -/
def shape (d : Dialect) (lines : List Text) : Shape (size lines) :=
  if h : lines.head?.any isIndented = true then
    .code ((lines.takeWhile isIndented).map (List.drop codeIndent)) (lines.dropWhile isIndented)
      (size_dropWhile_lt h)
  else
  match (if d = .extended then readTable? d lines else none) with
  | some t => .whole (.table t)
  | none =>
  match h : firstLine? heading? lines with
  | some (before, (level, title), after) =>
    .cut before (.heading level (phrase d title)) after (size_lt_of_firstLine? h)
  | none =>
  match h : underlined? d lines with
  | some (b, rest) => .cut [] b rest (by simpa [size] using size_lt_of_underlined? h)
  | none =>
  match h : firstLine? (fun l => if isRule l then some () else none) lines with
  | some (before, _, after) => .cut before .rule after (size_lt_of_firstLine? h)
  | none =>
  match lines.head?.bind (listKind? d) with
  | some kind => .list kind (itemsOf d kind lines)
  | none =>
  match h : firstLine? startOfQuote? lines with
  | some (before, t, after) =>
    .quote before (t :: unquoteAll after) (size_lt_of_startOfQuote? h)
  | none => if lines.all (·.all isBlank) then .nothing else .whole (paragraphOf d lines)

/-- The line is not empty. -/
def isFilled (line : Text) : Bool := !line.isEmpty

/-- The first lines without an empty one among them, and the lines after them. -/
def firstChunk? (lines : List Text) : Option (List Text × List Text) :=
  match lines.dropWhile List.isEmpty with
  | [] => none
  | l :: ls => some (l :: ls.takeWhile isFilled, ls.dropWhile isFilled)

theorem size_of_firstChunk? {lines chunk rest : List Text}
    (h : firstChunk? lines = some (chunk, rest)) :
    size chunk + size rest ≤ size lines ∧ 0 < size chunk := by
  unfold firstChunk? at h
  split at h
  · simp at h
  · next l ls heq =>
    simp only [Option.some.injEq, Prod.mk.injEq] at h
    obtain ⟨rfl, rfl⟩ := h
    have h₁ := size_dropWhile_le List.isEmpty lines
    have h₂ := size_append (ls.takeWhile isFilled) (ls.dropWhile isFilled)
    rw [List.takeWhile_append_dropWhile] at h₂
    rw [heq] at h₁
    simp only [size] at h₁ ⊢
    omega

/-- The number of empty lines at the head of lines. -/
def emptyLinesBefore (lines : List Text) : Nat := (lines.takeWhile List.isEmpty).length

/-- The blocks, the last one first, with one more piece of code, which `gap` empty lines stand
before. It goes on with code before it. -/
def addCode (gap : Nat) (lines : List Text) (done : List Block) : List Block :=
  match done with
  | .code before :: rest => .code (before ++ List.replicate gap [] ++ lines) :: rest
  | _ => .code lines :: done

/-- The blocks that lines make up, after those in `done`; the last block comes first. -/
def readBlocks (d : Dialect) (done : List Block) (lines : List Text) : List Block :=
  match h : firstChunk? lines with
  | none => done
  | some (chunk, rest) =>
    have := size_of_firstChunk? h
    match shape d chunk with
    | .nothing => readBlocks d done rest
    | .whole b => readBlocks d (b :: done) rest
    | .code code after _ =>
      have := size_append after rest
      readBlocks d (addCode (emptyLinesBefore lines) code done) (after ++ rest)
    | .list kind items => readBlocks d (addList d kind items done) rest
    | .cut before b after _ =>
      have := size_append after rest
      readBlocks d (b :: readBlocks d done before) (after ++ rest)
    | .quote before quoted _ =>
      match readBlocks d done before with
      | .quote inner :: outer =>
        readBlocks d (.quote (readBlocks d inner.reverse quoted).reverse :: outer) rest
      | outer => readBlocks d (.quote (readBlocks d [] quoted).reverse :: outer) rest
termination_by size lines
decreasing_by all_goals omega

/-- The blocks that lines make up. -/
def blocks (d : Dialect) (lines : List Text) : List Block := (readBlocks d [] lines).reverse

end OfficeFormula.Markdown
