import OfficeFormula.Markdown.Inline

/-!
# Links and images

A link is its words in brackets, and its target in parentheses right after them. Brackets and
parentheses inside are balanced. An image is written like a link after an exclamation mark. A title
in quotes may follow the target; parentheses in it do not count, unless it turns out to be none.
-/

namespace OfficeFormula.Markdown

/-- How many entries stand before the closing mark that balances; `depth` marks are open inside. -/
def balancedLength? (opening closing : Char) (depth : Nat) : List Inline → Option Nat
  | [] => none
  | p :: ps =>
    if p.isChar closing then
      if depth = 0 then some 0
      else (balancedLength? opening closing (depth - 1) ps).map (· + 1)
    else if p.isChar opening then
      (balancedLength? opening closing (depth + 1) ps).map (· + 1)
    else (balancedLength? opening closing depth ps).map (· + 1)

/-- A stretch that begins with a quote mark and may be a title. -/
structure Quotation where
  mark : Char
  /-- How many entries stand before the mark. -/
  start : Nat
  /-- How many entries stand before the last mark of the same kind so far. -/
  stop : Option Nat

/-- The quotation has ended, and the entry `last` is its mark. -/
def Quotation.endsWith (q : Quotation) (last : Option Inline) : Bool :=
  q.stop.isSome && last.any (Inline.isChar q.mark)

/-- What is known of the parentheses of a link while they are read. -/
structure TargetScan where
  /-- How many parentheses are open. -/
  depth : Nat
  /-- The first quotation. Parentheses in it do not count. -/
  first : Option Quotation
  /-- The first quotation with the other kind of mark after that. -/
  second : Option Quotation
  /-- How many closing parentheses are missing if there is no title. -/
  spare : Nat
  /-- How many entries stand before the last of these. -/
  spareEnd : Option Nat
  /-- The last entry that is no space. -/
  last : Option Inline

namespace TargetScan

/-- The opening parenthesis has been passed. -/
def start : TargetScan := ⟨1, none, none, 1, none, none⟩

/-- A quotation that ends here is the title. -/
def title? (s : TargetScan) : Option Quotation :=
  (s.first.filter (·.endsWith s.last)).or (s.second.filter (·.endsWith s.last))

/-- An opening parenthesis. -/
def opened (s : TargetScan) : TargetScan :=
  if s.first.isNone then { s with depth := s.depth + 1 } else { s with spare := s.spare - 1 }

/-- A closing parenthesis after `n` entries. -/
def closed (s : TargetScan) (n : Nat) : TargetScan :=
  if s.title?.isSome then { s with depth := 0 }
  else if s.first.isNone then { s with depth := s.depth - 1 }
  else if s.spare = 0 then s
  else { s with spare := s.spare - 1, spareEnd := if s.spare = 1 then some n else s.spareEnd }

/-- A quote mark after `n` entries. -/
def quoted (s : TargetScan) (n : Nat) (mark : Char) : TargetScan :=
  match s.first, s.second with
  | none, _ => { s with first := some ⟨mark, n, none⟩, spare := s.depth, depth := 1 }
  | some q, none =>
    if mark = q.mark then { s with first := some { q with stop := some n } }
    else { s with second := some ⟨mark, n, none⟩ }
  | some q, some r =>
    if mark = q.mark then { s with first := some { q with stop := some n } }
    else { s with second := some { r with stop := some n } }

/-- One more entry, after `n` entries. -/
def step (s : TargetScan) (n : Nat) (p : Inline) : TargetScan :=
  let s' := match p with
    | .char '(' => s.opened
    | .char ')' => s.closed n
    | .char '"' => s.quoted n '"'
    | .char '\'' => s.quoted n '\''
    | _ => s
  if p.isChar ' ' then s' else { s' with last := some p }

end TargetScan

/-- The target and the title of a link, and how many entries they take with all that is around them.
-/
structure LinkTarget where
  target : Text
  title : Option Text
  length : Nat

/-- A title as it is kept: without quotes around it, and with spaces for all blanks. -/
def cleanTitle (t : Text) : Text :=
  let t := t.trim
  let isQuoted (mark : Char) : Bool := t.head? = some mark && t.getLast? = some mark
  let bare := if isQuoted '"' || isQuoted '\'' then (t.drop 1).dropLast else t
  bare.map fun c => if isBlank c then ' ' else c

/-- A target whose opening parenthesis and blanks have been passed. `n` entries of `ps` have been
read with the result `s`, and `rest` are the others. -/
def scanTarget (ps : List Inline) (s : TargetScan) (n : Nat) (rest : List Inline) :
    Option LinkTarget :=
  let plain (ps : List Inline) : Text := Inline.plainAll ps
  match rest with
  | [] =>
    if s.spare = 0 then s.spareEnd.map fun e => ⟨(plain (ps.take e)).trim, none, e + 1⟩ else none
  | p :: rest =>
    if (s.step n p).depth = 0 then
      match s.title? with
      | some q =>
        let title := (ps.take (q.stop.getD 0)).drop (q.start + 1)
        some ⟨(plain (ps.take q.start)).trim, some (cleanTitle (plain title)), n + 1⟩
      | none => some ⟨(plain (ps.take n)).trim, none, n + 1⟩
    else scanTarget ps (s.step n p) (n + 1) rest

/-- Entries between a quote mark at the head of the list and the next one like it. -/
def quotation? (ps : List Inline) : Option (List Inline) :=
  match ps with
  | .char c :: rest =>
    let inner := rest.takeWhile fun p => !p.isChar c
    if (c = '"' || c = '\'') && inner.length < rest.length then some inner else none
  | _ => none

/-- A target in angle brackets, perhaps with a title, up to the closing parenthesis. -/
def bracketedTarget? (ps : List Inline) : Option LinkTarget :=
  match ps with
  | .char '<' :: rest =>
    let inner := rest.takeWhile fun p => !p.isChar '<' && !p.isChar '>'
    let after := rest.drop inner.length
    if after.head?.any (Inline.isChar '>') then
      let blanks (ps : List Inline) : Nat := (ps.takeWhile Inline.isBlankChar).length
      let n := inner.length + 2 + blanks (after.drop 1)
      let (title, m) := match quotation? (ps.drop n) with
        | some t => (some (cleanTitle (Inline.plainAll t)), n + t.length + 2)
        | none => (none, n)
      let m := m + blanks (ps.drop m)
      if (ps.drop m).head?.any (Inline.isChar ')') then
        some ⟨(Inline.plainAll inner).trim, title, m + 1⟩
      else none
    else none
  | _ => none

/-- The target of a link whose opening parenthesis has been passed. -/
def linkTarget? (ps : List Inline) : Option LinkTarget :=
  let blanks := (ps.takeWhile Inline.isBlankChar).length
  let body := ps.drop blanks
  ((bracketedTarget? body).or (scanTarget body TargetScan.start 0 body)).map fun t =>
    { t with length := t.length + blanks }

/-- The words and the target of a link whose opening bracket has been passed, and how many entries
follow that bracket. -/
def linkParts? (ps : List Inline) : Option (List Inline × LinkTarget × Nat) := do
  let n ← balancedLength? '[' ']' 0 ps
  match ps.drop (n + 1) with
  | [] => none
  | p :: rest =>
    if p.isChar '(' then
      let t ← linkTarget? rest
      return (ps.take n, t, n + 2 + t.length)
    else none

/-- A link, whose words are read by `later`. -/
def linkForm (later : List Inline → List Inline) : Form := fun previous ps =>
  match ps with
  | [] => none
  | p :: rest =>
    if p.isChar '[' && !(previous.any (Inline.isChar '!')) then do
      let (words, t, n) ← linkParts? rest
      return (.link t.target t.title (later words), n + 1)
    else none

/-- An image. -/
def imageForm : Form := fun _ ps =>
  match ps with
  | p :: q :: rest =>
    if p.isChar '!' && q.isChar '[' then do
      let (words, t, n) ← linkParts? rest
      return (.image t.target t.title (Inline.plainAll words), n + 2)
    else none
  | _ => none

end OfficeFormula.Markdown
