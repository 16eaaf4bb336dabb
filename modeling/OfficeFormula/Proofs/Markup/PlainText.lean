import OfficeFormula.Markup.Escape
import OfficeFormula.Markup.Html.Fragment
import OfficeFormula.Proofs.Text.Fold
import OfficeFormula.Proofs.Text.Reader

/-!
# Text that is no markup

Text in which no tag and no reference begins is read as it stands (`isPlainText`), and so is escaped
text, whatever it is. The two are written with other characters and are cut into other pieces, but
the pieces put together are the same (`Inked.yields`). So plain text before a tag may as well be escaped
(`readFragment_escape`).
-/

namespace OfficeFormula.Markup.Html

open Reader (Framed orElse_of_none orElse_of_some bind_of_none bind_of_some)

/-! ## Plain text -/

/-- A character that begins a tag or a comment after a less-than sign. -/
def opensTag (c : Char) : Bool := isAsciiLetter c || c == '/' || c == '!' || c == '?'

/-- The text begins with a tag or a comment. -/
def beginsTag : Text → Bool
  | '<' :: c :: _ => opensTag c
  | _ => false

/-- No tag, comment or reference begins anywhere in the text. -/
def isPlainText : Text → Bool
  | [] => true
  | c :: cs => !beginsTag (c :: cs) && (reference false (c :: cs)).isNone && isPlainText cs

theorem beginsTag_of_ne {c : Char} (h : c ≠ '<') (t : Text) : beginsTag (c :: t) = false := by
  unfold beginsTag
  split
  · next heq => exact absurd (List.cons.inj heq).1 h
  · rfl

/-- No tag begins over the end of a text that another tag follows. -/
theorem beginsTag_append {rest : Text} (tag : ∀ c ∈ rest.head?, c = '<') {t : Text} (hne : t ≠ []) :
    beginsTag (t ++ rest) = beginsTag t := by
  cases t with
  | nil => exact absurd rfl hne
  | cons c cs =>
    by_cases h : c = '<'
    · subst h
      cases cs with
      | nil =>
        cases rest with
        | nil => rfl
        | cons d ds =>
          rw [tag d rfl]
          rfl
      | cons d ds => rfl
    · rw [List.cons_append, beginsTag_of_ne h, beginsTag_of_ne h]

/-! ## References -/

/-- A character that a reference may hold. -/
def isReferenceChar (c : Char) : Bool := isEntityChar c || c == '&' || c == '#' || c == ';'

theorem reference_of_ne {c : Char} (h : c ≠ '&') (t : Text) : reference false (c :: t) = none := by
  refine bind_of_none ?_
  have other : '&' ≠ c := fun e => h e.symm
  simp [Reader.literal, Text.after?, other]

theorem oldEntityLength_le (n : Nat) (t : Text) : oldEntityLength n t ≤ n := by
  induction n with
  | zero => exact Nat.le_refl 0
  | succ n ih =>
    rw [oldEntityLength]
    split
    · exact Nat.le_refl _
    · exact Nat.le_succ_of_le ih

theorem isEntityChar_of_hexDigit? {c : Char} (h : (Xml.hexDigit? c).isSome = true) : isEntityChar c = true := by
  unfold Xml.hexDigit? at h
  simp only [isEntityChar, isAsciiLetter, Bool.or_eq_true, Bool.and_eq_true, decide_eq_true_eq]
  split at h
  · next digit => exact .inr digit
  · split at h
    · next low =>
      simp only [Bool.and_eq_true, decide_eq_true_eq] at low
      exact .inl (.inl ⟨low.1, Char.le_trans low.2 (by decide)⟩)
    · split at h
      · next high =>
        simp only [Bool.and_eq_true, decide_eq_true_eq] at high
        exact .inl (.inr ⟨high.1, Char.le_trans high.2 (by decide)⟩)
      · simp at h

/-- What a name stands for that a semicolon ends. -/
def endedName (name : Text) : Reader Text := fun t =>
  if t.head? = some ';' then (entity? name).map (·, t.tail) else none

theorem named_eq (t : Text) :
    named false t = (endedName (t.takeWhile isEntityChar) (t.drop (t.takeWhile isEntityChar).length)).or
      ((entity? ((t.takeWhile isEntityChar).take (oldEntityLength (t.takeWhile isEntityChar).length
        (t.takeWhile isEntityChar)))).map (·, t.drop (oldEntityLength (t.takeWhile isEntityChar).length
          (t.takeWhile isEntityChar)))) := by
  simp only [named, endedName, Bool.false_and, Bool.false_eq_true, if_false]
  congr 1
  split
  · next rest h => simp [h]
  · next other =>
    rw [if_neg]
    intro h
    obtain ⟨rest, h⟩ := List.head?_eq_some_iff.1 h
    exact other rest h

section Frame

variable {rest : Text} (stop : ∀ c ∈ rest.head?, isReferenceChar c = false)
include stop

theorem stops_of_imp {accepts : Char → Bool} (inside : ∀ c, accepts c = true → isReferenceChar c = true) :
    ∀ c ∈ rest.head?, accepts c = false := by
  intro c hc
  cases h : accepts c with
  | false => rfl
  | true => exact absurd (inside c h) (by simp [stop c hc])

theorem framed_endedName (name : Text) : Framed rest (endedName name) := by
  have semicolon : rest.head? ≠ some ';' := fun h => absurd (stop _ h) (by decide)
  intro t
  cases t with
  | nil => simp [endedName, semicolon]
  | cons c cs =>
    by_cases h : c = ';'
    · simp [endedName, h, Function.comp_def]
    · simp [endedName, h]

theorem framed_named : Framed rest (named false) := by
  intro t
  have entity : ∀ c ∈ rest.head?, isEntityChar c = false :=
    stops_of_imp stop fun c h => by simp [isReferenceChar, h]
  have name := (Reader.takeWhile_append_of_stop entity t).1
  have within : (t.takeWhile isEntityChar).length ≤ t.length := (t.takeWhile_prefix isEntityChar).length_le
  have old := oldEntityLength_le (t.takeWhile isEntityChar).length (t.takeWhile isEntityChar)
  rw [named_eq, named_eq, name, List.drop_append_of_le_length within,
    List.drop_append_of_le_length (Nat.le_trans old within), framed_endedName stop, Option.map_or, Option.map_map]
  rfl

/-- A reference is read the same whatever follows it, if that cannot go on with it. -/
theorem framed_reference : Framed rest (reference false) := by
  have word {s : String} (h : s.toList.all isReferenceChar = true) : Framed rest (Reader.literal s) := by
    refine Reader.framed_literal fun c hc hs => ?_
    exact absurd (List.all_eq_true.1 h c hs) (by simp [stop c hc])
  have number (base : Nat) {isDigit : Char → Bool} (inside : ∀ c, isDigit c = true → isEntityChar c = true) :
      Framed rest (numbered base isDigit) := by
    have stops : ∀ c ∈ rest.head?, isDigit c = false :=
      stops_of_imp stop fun c h => by simp [isReferenceChar, inside c h]
    refine (Reader.framed_takeWhile stops).filter.bind fun digits => ?_
    exact ((word (by decide)).orElse (Reader.framed_pure _)).bind fun _ => Reader.framed_pure _
  refine (word (by decide)).bind fun _ => ?_
  refine .orElse ?_ (.orElse ?_ (framed_named stop))
  · refine .bind ((word (by decide)).orElse (word (by decide))) fun _ => ?_
    exact number 16 fun c h => isEntityChar_of_hexDigit? h
  · exact (word (by decide)).bind fun _ => number 10 fun c h => by simp [isEntityChar, h]

end Frame

/-- A named character that a semicolon ends is read, whatever follows it. -/
theorem reference_named {name value : Text} (letters : name.all isEntityChar = true)
    (known : entity? name = some value) (t : Text) :
    reference false ('&' :: (name ++ ';' :: t)) = some (value, t) := by
  have taken : (name ++ ';' :: t).takeWhile isEntityChar = name := by
    rw [List.takeWhile_append_of_pos (List.all_eq_true.1 letters)]
    simp [isEntityChar, isAsciiLetter, isAsciiDigit]
  have read : named false (name ++ ';' :: t) = some (value, t) := by
    rw [named_eq, taken]
    simp [endedName, known]
  have other {s : String} {u : Text} (hs : s.toList = '#' :: u) :
      Reader.literal s (name ++ ';' :: t) = none := by
    refine Reader.literal_of_not_prefix fun found => ?_
    obtain ⟨rest, h⟩ := found
    rw [hs] at h
    cases name with
    | nil => simp at h
    | cons c cs =>
      have same : '#' = c := (List.cons.inj h).1
      have letter := List.all_eq_true.1 letters c List.mem_cons_self
      rw [← same] at letter
      exact absurd letter (by decide)
  rw [reference, bind_of_some (r := ((), name ++ ';' :: t)) rfl, orElse_of_none, orElse_of_none, read]
  · exact bind_of_none (other (u := []) rfl)
  · refine bind_of_none ?_
    rw [orElse_of_none (other (u := ['x']) rfl), other (u := ['X']) rfl]

/-! ## Events -/

theorem exists_of_nameOf_take {t : Text} (h : nameOf (t.take 9) = "<!doctype") :
    ∃ c d u, t = c :: d :: u ∧ c.toLower = '<' ∧ d.toLower = '!' := by
  have letters : (t.take 9).map Char.toLower = "<!doctype".toList := by
    rw [← h, nameOf, String.toList_ofList]
  cases t with
  | nil => simp at letters
  | cons c cs =>
    cases cs with
    | nil => simp at letters
    | cons d ds =>
      simp at letters
      exact ⟨c, d, ds, rfl, letters.1, letters.2.1⟩

/-- Where no tag begins, text is read. -/
theorem event_of_not_beginsTag {t : Text} (h : beginsTag t = false) :
    event t = (characters <|> (do return [.text (← reference false)])
      <|> (do return [.text [← Reader.char Text.anyChar]]) : Reader (List Event)) t := by
  have start {s : String} {d : Char} {u : Text} (hs : s.toList = '<' :: d :: u) (opens : opensTag d = true) :
      Reader.literal s t = none := by
    refine Reader.literal_of_not_prefix fun found => ?_
    obtain ⟨rest, found⟩ := found
    rw [← found, hs] at h
    exact absurd h (by simp [beginsTag, opens])
  have noComment : comment t = none := bind_of_none (start rfl rfl)
  have noEnd : endTag t = none := bind_of_none (start rfl rfl)
  have noStray : strayTag t = none := by
    refine bind_of_none ?_
    rw [orElse_of_none (bind_of_none (start rfl rfl))]
    refine bind_of_none ?_
    rw [orElse_of_none (start rfl rfl), start rfl rfl]
  have noType : documentType t = none := by
    refine bind_of_none (if_neg fun word => ?_)
    obtain ⟨c, d, u, rfl, less, mark⟩ := exists_of_nameOf_take word
    rw [eq_of_toLower_eq less (by decide), eq_of_toLower_eq mark (by decide)] at h
    exact absurd h (by simp [beginsTag, opensTag])
  have noStart : startTag t = none := by
    by_cases less : "<".toList <+: t
    · obtain ⟨u, rfl⟩ := less
      refine (bind_of_some (r := ((), u)) rfl).trans (bind_of_none (bind_of_none ?_))
      cases u with
      | nil => rfl
      | cons d ds =>
        refine if_neg fun letter => ?_
        exact absurd h (by simp [beginsTag, opensTag, letter])
    · exact bind_of_none (Reader.literal_of_not_prefix less)
  rw [event, orElse_of_none noComment, orElse_of_none noType, orElse_of_none noEnd, orElse_of_none noStray,
    orElse_of_none noStart]

/-- The first event is read, and then the rest. -/
theorem events_of_event {t rest : Text} {es : List Event} (h : event t = some (es, rest))
    (shorter : rest.length < t.length) : events t = es ++ events rest := by
  rw [events, Reader.collect, h]
  simp [shorter, events]

/-- A character that begins neither a tag nor a reference. -/
def isTextChar (c : Char) : Bool := c ≠ '<' && c ≠ '&'

/-- Reading a text gives the pieces of another text first, and then what reading the rest gives. -/
def Yields (t value rest : Text) : Prop :=
  ∃ pieces : List Text, events t = pieces.map .text ++ events rest ∧ pieces.flatten = value

theorem Yields.refl (t : Text) : Yields t [] t := ⟨[], rfl, rfl⟩

theorem Yields.trans {t u rest v w : Text} (h : Yields t v u) (h' : Yields u w rest) : Yields t (v ++ w) rest := by
  obtain ⟨ps, read, rfl⟩ := h
  obtain ⟨qs, read', rfl⟩ := h'
  exact ⟨ps ++ qs, by rw [read, read', List.map_append, List.append_assoc], List.flatten_append⟩

theorem Yields.of_event {t rest v : Text} (h : event t = some ([.text v], rest))
    (shorter : rest.length < t.length) : Yields t v rest :=
  ⟨[v], events_of_event h shorter, by simp⟩

/-- Text is read up to the next character that may begin something. -/
theorem yields_run {run rest : Text} (inside : run.all isTextChar = true)
    (stop : ∃ d u, rest = d :: u ∧ isTextChar d = false) : Yields (run ++ rest) run rest := by
  obtain ⟨d, u, rfl, ends⟩ := stop
  cases run with
  | nil => exact .refl _
  | cons c cs =>
    have first : isTextChar c = true := List.all_eq_true.1 inside c List.mem_cons_self
    have other : c ≠ '<' := fun h => absurd first (h ▸ by decide)
    have run : (c :: cs ++ d :: u).takeWhile isTextChar = c :: cs := by
      rw [List.takeWhile_append_of_pos (List.all_eq_true.1 inside)]
      simp [ends]
    have after : (c :: cs ++ d :: u).dropWhile isTextChar = d :: u := by
      rw [List.dropWhile_append_of_pos (List.all_eq_true.1 inside)]
      simp [ends]
    refine .of_event ?_ (by simp only [List.length_append, List.length_cons]; omega)
    rw [event_of_not_beginsTag (t := c :: cs ++ d :: u) (beginsTag_of_ne other _)]
    refine orElse_of_some ?_
    have read : Reader.takeWhile isTextChar (c :: cs ++ d :: u) = some (c :: cs, d :: u) := by
      rw [Reader.takeWhile, run, after]
    exact (bind_of_some ((bind_of_some read).trans rfl)).trans rfl

theorem characters_of_not_isTextChar {c : Char} (h : isTextChar c = false) (t : Text) :
    characters (c :: t) = none := by
  refine bind_of_none ?_
  have read : Reader.takeWhile isTextChar (c :: t) = some ([], c :: t) := by
    simp [Reader.takeWhile, h]
  exact (bind_of_some read).trans rfl

/-- A character at which nothing begins, though it might, is read by itself. -/
theorem yields_char {c : Char} {t : Text} (ends : isTextChar c = false) (noTag : beginsTag (c :: t) = false)
    (noReference : reference false (c :: t) = none) : Yields (c :: t) [c] t := by
  refine .of_event ?_ (by simp)
  rw [event_of_not_beginsTag noTag, orElse_of_none (characters_of_not_isTextChar ends t),
    orElse_of_none (bind_of_none noReference)]
  rfl

theorem yields_reference {t rest v : Text} (h : reference false ('&' :: t) = some (v, rest))
    (shorter : rest.length < ('&' :: t).length) : Yields ('&' :: t) v rest := by
  refine .of_event ?_ shorter
  rw [event_of_not_beginsTag (beginsTag_of_ne (by decide) t),
    orElse_of_none (characters_of_not_isTextChar (by decide) t), orElse_of_some (bind_of_some h)]

/-! ## Two ways to write a text -/

/-- What is written is read as the text. -/
inductive Inked : (written value : Text) → Prop where
  | nil : Inked [] []
  /-- A character at which no tag and no reference begins. -/
  | char {c w v} (noTag : beginsTag (c :: w) = false) (noReference : reference false (c :: w) = none)
      (more : Inked w v) : Inked (c :: w) (c :: v)
  /-- A character by its name. -/
  | named {name value w v} (letters : name.all isEntityChar = true) (known : entity? name = some value)
      (more : Inked w v) : Inked ('&' :: (name ++ ';' :: w)) (value ++ v)

theorem inked_of_isPlainText {t : Text} (h : isPlainText t = true) : Inked t t := by
  induction t with
  | nil => exact .nil
  | cons c cs ih =>
    simp only [isPlainText, Bool.and_eq_true, Bool.not_eq_true', Option.isNone_iff_eq_none] at h
    exact .char h.1.1 h.1.2 (ih h.2)

/-- Escaping a text writes it. -/
theorem inked_escape (t : Text) : Inked (escape t) t := by
  induction t with
  | nil => exact .nil
  | cons c cs ih =>
    rw [escape_cons]
    unfold escapeChar
    split
    · have known : entity? "amp".toList = some ['&'] := by decide +kernel
      exact .named (by decide) known ih
    · have known : entity? "lt".toList = some ['<'] := by decide +kernel
      exact .named (by decide) known ih
    · have known : entity? "gt".toList = some ['>'] := by decide +kernel
      exact .named (by decide) known ih
    · next amp lt gt => exact .char (beginsTag_of_ne lt _) (reference_of_ne amp _) ih

/-- Before a tag, what is written is read as the text, however it is cut into pieces. The text `run` has
been met and not been put out yet. -/
theorem Inked.yields {w v : Text} (inked : Inked w v) (z run : Text) (inside : run.all isTextChar = true) :
    Yields (run ++ (w ++ '<' :: z)) (run ++ v) ('<' :: z) := by
  induction inked generalizing run with
  | nil =>
    rw [List.append_nil]
    exact yields_run inside ⟨'<', z, rfl, by decide⟩
  | @char c w v noTag noReference more ih =>
    by_cases text : isTextChar c = true
    · have here := ih (run ++ [c]) (by simpa [text] using inside)
      simpa using here
    · have ends : isTextChar c = false := by simpa using text
      have before := yields_run inside ⟨c, w ++ '<' :: z, rfl, ends⟩
      have stop : ∀ d ∈ ('<' :: z).head?, isReferenceChar d = false := by
        intro d hd
        obtain rfl : '<' = d := by simpa using hd
        decide
      have noTag : beginsTag (c :: (w ++ '<' :: z)) = false :=
        (beginsTag_append (by simp) (List.cons_ne_nil c w)).trans noTag
      have noReference : reference false (c :: (w ++ '<' :: z)) = none := by
        have framed := framed_reference stop (c :: w)
        rwa [noReference] at framed
      have here := yields_char ends noTag noReference
      simpa using before.trans (here.trans (ih [] rfl))
  | @named name value w v letters known more ih =>
    have before := yields_run inside ⟨'&', name ++ ';' :: w ++ '<' :: z, rfl, by decide⟩
    have read := reference_named letters known (w ++ '<' :: z)
    have here := yields_reference read (by simp; omega)
    have text := here.trans (ih [] rfl)
    simpa using before.trans (by simpa using text)

/-! ## Fragments -/

/-- The one node of a text, or none. -/
def textNodes (t : Text) : List Node := if t = [] then [] else [.text t]

/-- Texts next to one another grow together. -/
theorem foldl_step_text (pieces : List Text) (v : Text) :
    (pieces.map Event.text).foldl Progress.step ⟨[], textNodes v⟩ = ⟨[], textNodes (v ++ pieces.flatten)⟩ := by
  induction pieces generalizing v with
  | nil => simp
  | cons t ts ih =>
    have one : Progress.step ⟨[], textNodes v⟩ (.text t) = ⟨[], textNodes (v ++ t)⟩ := by
      by_cases empty : t = []
      · simp [Progress.step, empty]
      · by_cases first : v = []
        · simp [Progress.step, Progress.add, addNode, textNodes, empty, first]
        · simp [Progress.step, Progress.add, addNode, textNodes, empty, first]
    rw [List.map_cons, List.foldl_cons, one, ih, List.flatten_cons, List.append_assoc]

/-- The nodes do not show how the text before a tag was cut into pieces. -/
theorem Yields.nodesOfEvents_eq {t u v rest : Text} (h : Yields t v rest) (h' : Yields u v rest) :
    nodesOfEvents (events t) = nodesOfEvents (events u) := by
  obtain ⟨ps, read, rfl⟩ := h
  obtain ⟨qs, read', same⟩ := h'
  have start : (⟨[], []⟩ : Progress) = ⟨[], textNodes []⟩ := rfl
  rw [nodesOfEvents, nodesOfEvents, read, read', List.foldl_append, List.foldl_append, start,
    foldl_step_text, foldl_step_text, same]

theorem beginsTag_of_startsWithWord {d : Char} {ds t : Text} (h : Text.startsWithWord ('<' :: d :: ds) t = true)
    (opens : ∀ c, foldCase c = d → opensTag c = true) : beginsTag t = true := by
  obtain ⟨rest, after⟩ := Option.isSome_iff_exists.1 h
  obtain ⟨found, rfl, folded⟩ := Text.exists_append_of_afterWord? after
  obtain ⟨b, found, rfl, less, folded⟩ := List.map_eq_cons_iff.1 folded
  obtain ⟨c, found, rfl, first, folded⟩ := List.map_eq_cons_iff.1 folded
  rw [eq_of_foldCase_eq less (by decide)]
  exact opens c first

/-- A document begins with a tag, after blanks. -/
theorem isDocument_of_not_beginsTag {t : Text} (h : beginsTag (t.dropWhile isBlank) = false) :
    isDocument t = false := by
  rw [isDocument, Bool.or_eq_false_iff]
  constructor
  · refine Bool.eq_false_iff.2 fun word => ?_
    have opens (c : Char) (folded : foldCase c = 'h') : opensTag c = true := by
      simp [opensTag, isAsciiLetter_of_foldCase_eq folded (by decide) (by decide)]
    exact absurd (beginsTag_of_startsWithWord word opens) (by simp [h])
  · refine Bool.eq_false_iff.2 fun word => ?_
    have opens (c : Char) (folded : foldCase c = '!') : opensTag c = true := by
      rw [eq_of_foldCase_eq folded (by decide)]
      decide
    exact absurd (beginsTag_of_startsWithWord word opens) (by simp [h])

/-- What is written for a text with something other than blanks in it begins with no tag. -/
theorem Inked.beginsTag_dropWhile {rest : Text} (tag : ∀ c ∈ rest.head?, c = '<') {w v : Text}
    (inked : Inked w v) (shown : v.all isBlank = false) : beginsTag ((w ++ rest).dropWhile isBlank) = false := by
  induction inked with
  | nil => simp at shown
  | @char c w v noTag _ _ ih =>
    by_cases blank : isBlank c = true
    · have later : v.all isBlank = false := by simpa [blank] using shown
      simpa [blank] using ih later
    · have first : (c :: w ++ rest).dropWhile isBlank = c :: w ++ rest := by simp [blank]
      rw [first, beginsTag_append tag (List.cons_ne_nil c w), noTag]
  | @named name value w v _ _ _ _ =>
    have ampersand : isBlank '&' = false := by decide
    have first : ('&' :: (name ++ ';' :: w) ++ rest).dropWhile isBlank = '&' :: (name ++ ';' :: w) ++ rest := by
      simp [ampersand]
    rw [first]
    exact beginsTag_of_ne (by decide) _

/-! ## Line ends -/

open Xml (normalizeLineEnds)

theorem normalizeLineEnds_cons (c : Char) (cs : Text) :
    normalizeLineEnds (c :: cs) = if c = '\r' ∧ cs.head? = some '\n' then normalizeLineEnds cs
      else (if c = '\r' then '\n' else c) :: normalizeLineEnds cs := by
  by_cases carriage : c = '\r'
  · subst carriage
    cases cs with
    | nil => simp [normalizeLineEnds]
    | cons d ds =>
      by_cases line : d = '\n'
      · simp [normalizeLineEnds, line]
      · simp [normalizeLineEnds, line]
  · simp [normalizeLineEnds, carriage]

theorem normalizeLineEnds_append {w : Text} (free : '\r' ∉ w) (t : Text) :
    normalizeLineEnds (w ++ t) = w ++ normalizeLineEnds t := by
  induction w with
  | nil => rfl
  | cons c cs ih =>
    simp only [List.mem_cons, not_or] at free
    have other : ¬c = '\r' := fun h => free.1 h.symm
    simp [normalizeLineEnds_cons, other, ih free.2]

theorem head?_normalizeLineEnds (t : Text) :
    (normalizeLineEnds t).head? = t.head?.map fun c => if c = '\r' then '\n' else c := by
  induction t with
  | nil => rfl
  | cons c cs ih =>
    rw [normalizeLineEnds_cons]
    split
    · next pair => rw [ih, pair.2]; simp [pair.1]
    · rfl

theorem normalizeLineEnds_append_less (t z : Text) :
    normalizeLineEnds (t ++ '<' :: z) = normalizeLineEnds t ++ '<' :: normalizeLineEnds z := by
  induction t with
  | nil => simp [normalizeLineEnds_cons, normalizeLineEnds]
  | cons c cs ih =>
    have head : (cs ++ '<' :: z).head? = some '\n' ↔ cs.head? = some '\n' := by
      cases cs with
      | nil => simp
      | cons d ds => simp
    rw [List.cons_append, normalizeLineEnds_cons, normalizeLineEnds_cons, ih]
    simp only [head]
    split <;> rfl

/-- Escaping does not touch line ends. -/
theorem normalizeLineEnds_escape (t : Text) : normalizeLineEnds (escape t) = escape (normalizeLineEnds t) := by
  induction t with
  | nil => rfl
  | cons c cs ih =>
    have head : (escape cs).head? = some '\n' ↔ cs.head? = some '\n' := by
      cases cs with
      | nil => rfl
      | cons d ds =>
        rw [escape_cons]
        unfold escapeChar
        split <;> simp
    by_cases same : escapeChar c = [c]
    · rw [escape_cons, same, List.singleton_append, normalizeLineEnds_cons, normalizeLineEnds_cons, ih]
      simp only [head]
      split
      · rfl
      · by_cases ends : c = '\r'
        · have line : escapeChar '\n' = ['\n'] := by decide
          simp [escape_cons, ends, line]
        · simp [escape_cons, ends, same]
    · have free : '\r' ∉ escapeChar c ∧ c ≠ '\r' := by
        unfold escapeChar at same ⊢
        split at same <;> simp_all
      rw [escape_cons, normalizeLineEnds_append free.1, normalizeLineEnds_cons]
      simp [free.2, escape_cons, ih]

theorem beginsTag_less (t : Text) : beginsTag ('<' :: t) = t.head?.any opensTag := by
  cases t with
  | nil => rfl
  | cons c cs => rfl

theorem beginsTag_normalizeLineEnds {c : Char} {t : Text} (h : beginsTag (c :: t) = false) :
    beginsTag (c :: normalizeLineEnds t) = false := by
  by_cases less : c = '<'
  · subst less
    rw [beginsTag_less] at h ⊢
    rw [head?_normalizeLineEnds]
    cases t with
    | nil => rfl
    | cons d ds =>
      by_cases carriage : d = '\r'
      · simp [carriage, opensTag, isAsciiLetter]
      · simpa [carriage] using h
  · exact beginsTag_of_ne less _

/-- No reference comes from line ends. -/
theorem reference_normalizeLineEnds {t : Text} (h : reference false ('&' :: t) = none) :
    reference false ('&' :: normalizeLineEnds t) = none := by
  -- What a reference may go on with has no line ends; it is followed by something else in both texts.
  obtain ⟨w, rest, split, inside, stop⟩ : ∃ w rest, t = w ++ rest ∧ w.all isReferenceChar = true ∧
      ∀ c ∈ rest.head?, isReferenceChar c = false := by
    refine ⟨t.takeWhile isReferenceChar, t.dropWhile isReferenceChar, List.takeWhile_append_dropWhile.symm,
      List.all_takeWhile, ?_⟩
    intro c hc
    have := List.head?_dropWhile_not isReferenceChar t
    rw [Option.mem_def.1 hc] at this
    simpa using this
  subst split
  have free : '\r' ∉ w := fun mem => absurd (List.all_eq_true.1 inside _ mem) (by decide)
  have stop' : ∀ c ∈ (normalizeLineEnds rest).head?, isReferenceChar c = false := by
    intro c hc
    rw [head?_normalizeLineEnds, Option.mem_def, Option.map_eq_some_iff] at hc
    obtain ⟨d, hd, rfl⟩ := hc
    split
    · decide
    · exact stop d hd
  have alone : reference false ('&' :: w) = none := by
    have framed := framed_reference stop ('&' :: w)
    rw [List.cons_append, h] at framed
    exact Option.map_eq_none_iff.1 framed.symm
  rw [normalizeLineEnds_append free, ← List.cons_append, framed_reference stop', alone]
  rfl

/-- Line ends matter neither for tags nor for references. -/
theorem isPlainText_normalizeLineEnds {t : Text} (h : isPlainText t = true) :
    isPlainText (normalizeLineEnds t) = true := by
  induction t with
  | nil => rfl
  | cons c cs ih =>
    simp only [isPlainText, Bool.and_eq_true, Bool.not_eq_true', Option.isNone_iff_eq_none] at h
    obtain ⟨⟨noTag, noReference⟩, more⟩ := h
    rw [normalizeLineEnds_cons]
    split
    · exact ih more
    · simp only [isPlainText, Bool.and_eq_true, Bool.not_eq_true', Option.isNone_iff_eq_none]
      by_cases carriage : c = '\r'
      · rw [if_pos carriage]
        exact ⟨⟨beginsTag_of_ne (by decide) _, reference_of_ne (by decide) _⟩, ih more⟩
      · rw [if_neg carriage]
        refine ⟨⟨beginsTag_normalizeLineEnds noTag, ?_⟩, ih more⟩
        by_cases ampersand : c = '&'
        · subst ampersand
          exact reference_normalizeLineEnds noReference
        · exact reference_of_ne ampersand _

theorem escape_of_all_isBlank {t : Text} (h : t.all isBlank = true) : escape t = t := by
  have shown : ['&', '<', '>'].all (!isBlank ·) = true := by decide
  refine escape_eq_self fun c reserved mem => ?_
  have visible := List.all_eq_true.1 shown c reserved
  rw [List.all_eq_true.1 h c mem] at visible
  exact absurd visible (by decide)

/-- Plain text before a tag, or at the end, reads the same with its characters escaped. -/
theorem readFragment_escape {t rest : Text} (plain : isPlainText t = true) (tag : ∀ c ∈ rest.head?, c = '<') :
    readFragment (escape t ++ rest) = readFragment (t ++ rest) := by
  by_cases blank : t.all isBlank = true
  · rw [escape_of_all_isBlank blank]
  · have shown : t.all isBlank = false := by simpa using blank
    have fragment {w : Text} (inked : Inked w t) : isDocument (w ++ rest) = false :=
      isDocument_of_not_beginsTag (inked.beginsTag_dropWhile tag shown)
    obtain ⟨z, more⟩ : ∃ z, rest ++ documentEnd = '<' :: z := by
      cases rest with
      | nil => exact ⟨_, rfl⟩
      | cons c cs => exact ⟨cs ++ documentEnd, by rw [tag c rfl]; rfl⟩
    have read {w : Text} (inked : Inked (normalizeLineEnds w) (normalizeLineEnds t)) :
        Yields (normalizeLineEnds (w ++ rest ++ documentEnd)) (normalizeLineEnds t)
          ('<' :: normalizeLineEnds z) := by
      rw [List.append_assoc, more, normalizeLineEnds_append_less]
      exact inked.yields _ [] rfl
    have escaped := read (normalizeLineEnds_escape t ▸ inked_escape (normalizeLineEnds t))
    have bare := read (inked_of_isPlainText (isPlainText_normalizeLineEnds plain))
    simp only [readFragment, fragment (inked_escape t), fragment (inked_of_isPlainText plain),
      Bool.false_eq_true, if_false]
    exact congrArg (Except.ok ∘ dropBlankText) (escaped.nodesOfEvents_eq bare)

end OfficeFormula.Markup.Html
