import OfficeFormula.Omml.Render

/-!
# Written markup is read back

A plain reader of markup and what it gives on the written form of a tree. The reader goes through the text
once: a lexer cuts it into start tags, end tags, self-closing tags and text (`lex`), and a stack of open
elements turns these into nodes (`build`). It knows nothing of how trees are written: attributes may stand
further apart, an element without children may have an end tag, and a `>` may stand in text.

A tree whose names are names, whose attributes differ and whose texts are apart (`Node.isPlain`) is read
back as it was (`read?_render`).
-/

namespace OfficeFormula.Omml

/-! ## The reader -/

/-- A character that may stand in a name. -/
def isTagNameChar (c : Char) : Bool := !isBlank c && !"<>/=\"'&".toList.contains c

/-- The text that written text stands for. A reference is one of the five predefined ones. -/
def unescape? : Text → Option Text
  | [] => some []
  | '&' :: 'a' :: 'm' :: 'p' :: ';' :: t => (unescape? t).map ('&' :: ·)
  | '&' :: 'l' :: 't' :: ';' :: t => (unescape? t).map ('<' :: ·)
  | '&' :: 'g' :: 't' :: ';' :: t => (unescape? t).map ('>' :: ·)
  | '&' :: 'q' :: 'u' :: 'o' :: 't' :: ';' :: t => (unescape? t).map ('"' :: ·)
  | '&' :: 'a' :: 'p' :: 'o' :: 's' :: ';' :: t => (unescape? t).map ('\'' :: ·)
  | c :: t => if c = '&' ∨ c = '<' then none else (unescape? t).map (c :: ·)

/-- The name and the attributes of a tag. -/
structure Head where
  tag : String
  attrs : List (String × Text)

/-- A piece of markup. -/
inductive Event where
  | opening (head : Head)
  | closing (tag : String)
  | single (head : Head)
  | text (t : Text)

/-- The place of the lexer, with what it has read there. -/
inductive Mode where
  /-- Between tags, after the written text `run`. -/
  | content (run : Text)
  /-- After a `<`. -/
  | tag
  | openName (name : Text)
  /-- After a blank in a tag. -/
  | blank (head : Head)
  | attrName (head : Head) (name : Text)
  /-- After the `=` of an attribute. -/
  | attrEquals (head : Head) (name : Text)
  | attrValue (head : Head) (name value : Text)
  /-- After the value of an attribute. -/
  | attrEnd (head : Head)
  /-- After the `/` that ends a tag. -/
  | slash (head : Head)
  | closeName (name : Text)

namespace Mode

/-- What follows the name or an attribute of a tag. -/
def afterPart (head : Head) (c : Char) : Option (List Event × Mode) :=
  if isBlank c then some ([], blank head)
  else if c = '>' then some ([.opening head], content [])
  else if c = '/' then some ([], slash head)
  else none

/-- The text between two tags, if there is any. -/
def textEvents? (run : Text) : Option (List Event) :=
  if run = [] then some [] else (unescape? run).map fun t => [.text t]

/-- The tag with one more attribute, whose name must be new. -/
def withAttr? (head : Head) (name value : Text) : Option Head :=
  if String.ofList name ∈ head.attrs.map (·.1) then none
  else (unescape? value).map fun v => ⟨head.tag, head.attrs ++ [(String.ofList name, v)]⟩

/-- One character of markup: the pieces that it completes and the place after it. -/
def step : Mode → Char → Option (List Event × Mode)
  | content run, c =>
    if c = '<' then (textEvents? run).map fun events => (events, tag) else some ([], content (run ++ [c]))
  | tag, c =>
    if c = '/' then some ([], closeName [])
    else if isTagNameChar c then some ([], openName [c]) else none
  | openName name, c =>
    if isTagNameChar c then some ([], openName (name ++ [c])) else afterPart ⟨String.ofList name, []⟩ c
  | blank head, c => if isTagNameChar c then some ([], attrName head [c]) else afterPart head c
  | attrName head name, c =>
    if isTagNameChar c then some ([], attrName head (name ++ [c]))
    else if c = '=' then some ([], attrEquals head name) else none
  | attrEquals head name, c => if c = '"' then some ([], attrValue head name []) else none
  | attrValue head name value, c =>
    if c = '"' then (withAttr? head name value).map fun head => ([], attrEnd head)
    else some ([], attrValue head name (value ++ [c]))
  | attrEnd head, c => afterPart head c
  | slash head, c => if c = '>' then some ([.single head], content []) else none
  | closeName name, c =>
    if isTagNameChar c then some ([], closeName (name ++ [c]))
    else if c = '>' ∧ name ≠ [] then some ([.closing (String.ofList name)], content []) else none

/-- At the end of the markup. Nothing may be left open in a tag. -/
def finish : Mode → Option (List Event)
  | content run => textEvents? run
  | _ => none

/-- The pieces of markup. -/
def lex : Mode → Text → Option (List Event)
  | mode, [] => mode.finish
  | mode, c :: cs => (mode.step c).bind fun (events, next) => (lex next cs).map (events ++ ·)

end Mode

/-- An element that is open, and the nodes that stand before it. -/
structure Frame where
  head : Head
  before : List Node

/-- The nodes of some pieces, below open elements (the innermost first) and after `nodes`. An end tag has
the name of the innermost element. -/
def build (frames : List Frame) (nodes : List Node) : List Event → Option (List Node)
  | [] => if frames.isEmpty then some nodes else none
  | .text t :: events => build frames (nodes ++ [.text t]) events
  | .single head :: events => build frames (nodes ++ [.element head.tag head.attrs []]) events
  | .opening head :: events => build (⟨head, nodes⟩ :: frames) [] events
  | .closing tag :: events =>
    match frames with
    | [] => none
    | ⟨head, before⟩ :: frames =>
      if tag = head.tag then build frames (before ++ [.element head.tag head.attrs nodes]) events
      else none

/-- The pieces of a text. -/
def lexed? (t : Text) : Option (List Event) := (Mode.content []).lex t

/-- The element that a text is. -/
def read? (t : Text) : Option Node :=
  match (lexed? t).bind (build [] []) with
  | some [.element tag attrs children] => some (.element tag attrs children)
  | _ => none

/-- Every start tag has its end tag, and between the two the tags are balanced too. -/
inductive Balanced : List Event → Prop where
  | nil : Balanced []
  | text (t : Text) {events : List Event} : Balanced events → Balanced (.text t :: events)
  | single (head : Head) {events : List Event} : Balanced events → Balanced (.single head :: events)
  | element (head : Head) {inside events : List Event} : Balanced inside → Balanced events →
      Balanced (.opening head :: (inside ++ .closing head.tag :: events))

/-! ## Trees that can be read back -/

/-- A name: not empty, and made of the characters of names. -/
def isTagName (name : String) : Bool := !name.toList.isEmpty && name.toList.all isTagNameChar

namespace Node

def isElement : Node → Bool
  | element _ _ _ => true
  | text _ => false

mutual

/-- Tags and attributes have names, the attributes of an element differ, and texts are not empty and not
adjacent. -/
def isPlain : Node → Bool
  | element tag attrs children =>
    isTagName tag && attrs.all (fun attr => isTagName attr.1) && decide (attrs.map (·.1)).Nodup &&
      allPlain children
  | text t => !t.isEmpty

def allPlain : List Node → Bool
  | [] => true
  | n :: ns => n.isPlain && (n.isElement || (ns.head?.map isElement).getD true) && allPlain ns

end

mutual

/-- The pieces of a tree. -/
def events : Node → List Event
  | element tag attrs [] => [.single ⟨tag, attrs⟩]
  | element tag attrs (n :: ns) => .opening ⟨tag, attrs⟩ :: (n.events ++ eventsAll ns ++ [.closing tag])
  | text t => [.text t]

def eventsAll : List Node → List Event
  | [] => []
  | n :: ns => n.events ++ eventsAll ns

end

end Node

/-! ## Escaping -/

theorem unescape?_cons {c : Char} (other : c ≠ '&') (angle : c ≠ '<') (t : Text) :
    unescape? (c :: t) = (unescape? t).map (c :: ·) := by
  rw [unescape?]
  · rw [if_neg (by simp [other, angle])]
  all_goals simp_all

/-- Written text stands for the text. -/
theorem unescape?_escape (t : Text) : unescape? (escape t) = some t := by
  induction t with
  | nil => rfl
  | cons c t ih =>
    rw [escape, List.flatMap_cons, ← escape]
    fun_cases escapeChar c with
    | case6 _ amp lt gt quot apos =>
      rw [List.singleton_append, unescape?_cons amp lt, ih]
      rfl
    | _ => simp [unescape?, ih]

theorem escape_ne_nil {t : Text} (ne : t ≠ []) : escape t ≠ [] := by
  intro h
  have back := unescape?_escape t
  rw [h] at back
  exact ne (Option.some.inj back).symm

/-! ## The lexer

`Reads m u events m'`: from the place `m` the lexer reads `u`, completes `events` and is at `m'`, whatever
follows. -/

def Mode.Reads (m : Mode) (u : Text) (events : List Event) (m' : Mode) : Prop :=
  ∀ rest, m.lex (u ++ rest) = (m'.lex rest).map (events ++ ·)

namespace Mode

theorem Reads.nil (m : Mode) : m.Reads [] [] m := by
  intro rest
  simp

theorem Reads.append {m m' m'' : Mode} {u u' : Text} {es es' : List Event} (h : m.Reads u es m')
    (h' : m'.Reads u' es' m'') : m.Reads (u ++ u') (es ++ es') m'' := by
  intro rest
  rw [List.append_assoc, h, h', Option.map_map]
  congr 1
  funext more
  exact (List.append_assoc es es' more).symm

theorem Reads.of_step {m m' : Mode} {c : Char} {es : List Event} (h : m.step c = some (es, m')) :
    m.Reads [c] es m' := by
  intro rest
  rw [List.singleton_append, lex, h, Option.bind_some]

theorem Reads.cons {m m' m'' : Mode} {c : Char} {u : Text} {es : List Event}
    (h : m.step c = some ([], m')) (h' : m'.Reads u es m'') : m.Reads (c :: u) es m'' :=
  (Reads.of_step h).append h'

/-- A place that gathers the characters of one kind gathers a text of such characters. -/
theorem reads_gathered {place : Text → Mode} {p : Char → Prop}
    (gathers : ∀ t c, p c → (place t).step c = some ([], place (t ++ [c]))) {u : Text}
    (all : ∀ c ∈ u, p c) (t : Text) : (place t).Reads u [] (place (t ++ u)) := by
  induction u generalizing t with
  | nil =>
    rw [List.append_nil]
    exact Reads.nil (place t)
  | cons c u ih =>
    rw [List.forall_mem_cons] at all
    have later := ih all.2 (t ++ [c])
    rw [List.append_assoc] at later
    exact Reads.cons (gathers t c all.1) later

theorem reads_content (t run : Text) : (content run).Reads (escape t) [] (content (run ++ escape t)) := by
  refine reads_gathered (p := (· ≠ '<')) ?_ (fun c hc same => not_mem_escape (by decide) t (same ▸ hc)) run
  intro run c other
  simp [step, other]

theorem reads_attrValue (head : Head) (name t : Text) :
    (attrValue head name []).Reads (escape t) [] (attrValue head name (escape t)) := by
  refine reads_gathered (p := (· ≠ '"')) ?_ (fun c hc same => not_mem_escape (by decide) t (same ▸ hc)) []
  intro value c other
  simp [step, other]

/-- A name is read from its first character on by a place that gathers it. -/
theorem reads_name {m : Mode} {place : Text → Mode}
    (starts : ∀ c, isTagNameChar c = true → m.step c = some ([], place [c]))
    (gathers : ∀ t c, isTagNameChar c = true → (place t).step c = some ([], place (t ++ [c])))
    {name : String} (lawful : isTagName name = true) : m.Reads name.toList [] (place name.toList) := by
  rw [isTagName, Bool.and_eq_true, Bool.not_eq_true', List.all_eq_true] at lawful
  obtain ⟨ne, all⟩ := lawful
  generalize name.toList = u at ne all ⊢
  cases u with
  | nil => exact absurd ne (by simp)
  | cons c u =>
    rw [List.forall_mem_cons] at all
    exact Reads.cons (starts c all.1) (reads_gathered gathers all.2 [c])

/-- An attribute whose name is new. -/
theorem reads_attr {m : Mode} {head : Head}
    (between : ∀ c, isTagNameChar c = false → m.step c = afterPart head c) {attr : String × Text}
    (lawful : isTagName attr.1 = true) (fresh : attr.1 ∉ head.attrs.map (·.1)) :
    m.Reads (renderAttr attr) [] (attrEnd ⟨head.tag, head.attrs ++ [attr]⟩) := by
  have separated : m.step ' ' = some ([], blank head) := by
    rw [between ' ' (by decide)]
    rfl
  have name : (blank head).Reads attr.1.toList [] (attrName head attr.1.toList) := by
    apply reads_name _ _ lawful
    · intro c hc
      rw [step, if_pos hc]
    · intro t c hc
      rw [step, if_pos hc]
  have equals : (attrName head attr.1.toList).step '=' = some ([], attrEquals head attr.1.toList) := rfl
  have quote : (attrEquals head attr.1.toList).step '"' = some ([], attrValue head attr.1.toList []) := rfl
  have closed : (attrValue head attr.1.toList (escape attr.2)).step '"' =
      some ([], attrEnd ⟨head.tag, head.attrs ++ [attr]⟩) := by
    rw [step, if_pos rfl, withAttr?, String.ofList_toList, if_neg fresh, unescape?_escape]
    rfl
  have value := (reads_attrValue head attr.1.toList attr.2).append (Reads.of_step closed)
  have all := Reads.cons separated (name.append (Reads.cons equals (Reads.cons quote value)))
  simpa [renderAttr] using all

/-- The attributes of a tag, after those it has already. -/
theorem reads_attrs {m : Mode} (head : Head)
    (between : ∀ c, isTagNameChar c = false → m.step c = afterPart head c) {attrs : List (String × Text)}
    (lawful : ∀ attr ∈ attrs, isTagName attr.1 = true) (differ : ((head.attrs ++ attrs).map (·.1)).Nodup)
    {c : Char} (ends : isTagNameChar c = false) {es : List Event} {m' : Mode}
    (next : afterPart ⟨head.tag, head.attrs ++ attrs⟩ c = some (es, m')) :
    m.Reads (attrs.flatMap renderAttr ++ [c]) es m' := by
  induction attrs generalizing m head with
  | nil =>
    rw [List.append_nil] at next
    exact Reads.of_step ((between c ends).trans next)
  | cons attr attrs ih =>
    rw [List.forall_mem_cons] at lawful
    have fresh : attr.1 ∉ head.attrs.map (·.1) := by
      rw [List.map_append, List.map_cons, List.nodup_append] at differ
      intro h
      exact differ.2.2 _ h _ List.mem_cons_self rfl
    have first := reads_attr between lawful.1 fresh
    have later := ih ⟨head.tag, head.attrs ++ [attr]⟩ (m := attrEnd ⟨head.tag, head.attrs ++ [attr]⟩)
      (fun _ _ => rfl) lawful.2 (by simpa using differ) (by simpa using next)
    have all := first.append later
    rwa [List.nil_append, ← List.append_assoc, ← List.flatMap_cons] at all

/-- The head of a tag, and the character that ends it. -/
theorem reads_head {tag : String} {attrs : List (String × Text)} (lawful : isTagName tag = true)
    (names : ∀ attr ∈ attrs, isTagName attr.1 = true) (differ : (attrs.map (·.1)).Nodup) {c : Char}
    (ends : isTagNameChar c = false) {es : List Event} {m' : Mode}
    (next : afterPart ⟨tag, attrs⟩ c = some (es, m')) :
    (content []).Reads (renderHead tag attrs ++ [c]) es m' := by
  have starts : (content []).step '<' = some ([], Mode.tag) := rfl
  have name : Mode.tag.Reads tag.toList [] (openName tag.toList) := by
    apply reads_name _ _ lawful
    · intro c hc
      have slash : c ≠ '/' := by
        rintro rfl
        exact absurd hc (by decide)
      rw [step, if_neg slash, if_pos hc]
    · intro t c hc
      rw [step, if_pos hc]
  have later : (openName tag.toList).Reads (attrs.flatMap renderAttr ++ [c]) es m' := by
    apply reads_attrs ⟨tag, []⟩ _ names differ ends next
    intro c hc
    rw [step, if_neg (by simp [hc]), String.ofList_toList]
  have all := Reads.cons starts (name.append later)
  simpa [renderHead] using all

theorem reads_single {tag : String} {attrs : List (String × Text)} (lawful : isTagName tag = true)
    (names : ∀ attr ∈ attrs, isTagName attr.1 = true) (differ : (attrs.map (·.1)).Nodup) :
    (content []).Reads (renderHead tag attrs ++ "/>".toList) [.single ⟨tag, attrs⟩] (content []) := by
  have head := reads_head lawful names differ (c := '/') (by decide) rfl
  have closed : (slash ⟨tag, attrs⟩).step '>' = some ([.single ⟨tag, attrs⟩], content []) := rfl
  have all := head.append (Reads.of_step closed)
  rwa [List.append_assoc] at all

theorem reads_closing {tag : String} (lawful : isTagName tag = true) :
    (content []).Reads ("</".toList ++ tag.toList ++ ['>']) [.closing tag] (content []) := by
  have starts : (content []).step '<' = some ([], Mode.tag) := rfl
  have slash : Mode.tag.step '/' = some ([], closeName []) := rfl
  have gathers (t : Text) (c : Char) (hc : isTagNameChar c = true) :
      (closeName t).step c = some ([], closeName (t ++ [c])) := by
    rw [step, if_pos hc]
  have name := reads_name (gathers []) gathers lawful
  have ne : tag.toList ≠ [] := by
    rw [isTagName, Bool.and_eq_true, Bool.not_eq_true', List.isEmpty_eq_false_iff] at lawful
    exact lawful.1
  have closed : (closeName tag.toList).step '>' = some ([.closing tag], content []) := by
    rw [step, if_neg (by decide), if_pos ⟨rfl, ne⟩, String.ofList_toList]
  exact Reads.cons starts (Reads.cons slash (name.append (Reads.of_step closed)))

/-- Text ends where a tag begins or the markup ends. -/
theorem lex_text {t : Text} (ne : t ≠ []) {rest : Text} (ends : ∀ c ∈ rest.head?, c = '<') :
    (content []).lex (escape t ++ rest) = ((content []).lex rest).map ([.text t] ++ ·) := by
  have one : textEvents? (escape t) = some [.text t] := by
    rw [textEvents?, if_neg (escape_ne_nil ne), unescape?_escape]
    rfl
  have none : textEvents? [] = some [] := rfl
  rw [reads_content t [] rest, List.nil_append]
  cases rest with
  | nil => simp [lex, finish, one, none]
  | cons c rest =>
    obtain rfl : c = '<' := ends c rfl
    simp only [lex, step, one, none, if_pos, Option.map_some, Option.bind_some, Option.map_map]
    rfl

end Mode

/-! ## Reading a tree -/

namespace Node

open Mode (content)

theorem head?_render_element (tag : String) (attrs : List (String × Text)) (children : List Node) :
    (render (element tag attrs children)).head? = some '<' := by
  cases children with
  | nil => rfl
  | cons n ns => rfl

theorem head?_renderAll {ns : List Node} (h : (ns.head?.map isElement).getD true = true) {rest : Text}
    (ends : ∀ c ∈ rest.head?, c = '<') : ∀ c ∈ (renderAll ns ++ rest).head?, c = '<' := by
  cases ns with
  | nil => exact ends
  | cons n ns =>
    cases n with
    | text t => simp [isElement] at h
    | element tag attrs children =>
      intro c hc
      rw [renderAll, List.append_assoc, List.head?_append, head?_render_element] at hc
      exact (Option.some.inj hc).symm

mutual

/-- The written form of a node is cut into the pieces of the node. After a text a tag has to follow. -/
theorem lex_render : (n : Node) → n.isPlain = true → (rest : Text) →
    (n.isElement = true ∨ ∀ c ∈ rest.head?, c = '<') →
    (content []).lex (n.render ++ rest) = ((content []).lex rest).map (n.events ++ ·)
  | text t, plain, rest, ends => by
    have ne : t ≠ [] := by simpa [isPlain] using plain
    have ends : ∀ c ∈ rest.head?, c = '<' := by simpa [isElement] using ends
    exact Mode.lex_text ne ends
  | element tag attrs [], plain, rest, _ => by
    simp only [isPlain, Bool.and_eq_true, List.all_eq_true, decide_eq_true_eq] at plain
    obtain ⟨⟨⟨lawful, names⟩, differ⟩, -⟩ := plain
    exact Mode.reads_single lawful names differ rest
  | element tag attrs (n :: ns), plain, rest, _ => by
    simp only [isPlain, Bool.and_eq_true, List.all_eq_true, decide_eq_true_eq] at plain
    obtain ⟨⟨⟨lawful, names⟩, differ⟩, inside⟩ := plain
    have opened := Mode.reads_head lawful names differ (c := '>') (by decide) rfl
    have children := lex_renderAll (n :: ns) inside ("</".toList ++ tag.toList ++ ['>'] ++ rest) (by simp)
    have closed := Mode.reads_closing lawful rest
    calc (content []).lex (render (element tag attrs (n :: ns)) ++ rest)
      _ = (content []).lex (renderHead tag attrs ++ ['>'] ++
            (renderAll (n :: ns) ++ ("</".toList ++ tag.toList ++ ['>'] ++ rest))) := by
          simp [render, renderAll]
      _ = ((content []).lex rest).map (events (element tag attrs (n :: ns)) ++ ·) := by
          rw [opened, children, closed, Option.map_map, Option.map_map]
          congr 1
          funext more
          simp [events, eventsAll]

theorem lex_renderAll : (ns : List Node) → allPlain ns = true → (rest : Text) →
    (∀ c ∈ rest.head?, c = '<') →
    (content []).lex (renderAll ns ++ rest) = ((content []).lex rest).map (eventsAll ns ++ ·)
  | [], _, rest, _ => by simp [renderAll, eventsAll]
  | n :: ns, plain, rest, ends => by
    simp only [allPlain, Bool.and_eq_true, Bool.or_eq_true] at plain
    obtain ⟨⟨plain, apart⟩, later⟩ := plain
    have apart : n.isElement = true ∨ ∀ c ∈ (renderAll ns ++ rest).head?, c = '<' :=
      apart.imp_right fun h => head?_renderAll h ends
    rw [renderAll, List.append_assoc, lex_render n plain _ apart, lex_renderAll ns later rest ends,
      Option.map_map]
    congr 1
    funext more
    simp [eventsAll]

end

mutual

/-- The pieces of a node put the node after those that are there. -/
theorem build_events (frames : List Frame) (nodes : List Node) : (n : Node) → (es : List Event) →
    build frames nodes (n.events ++ es) = build frames (nodes ++ [n]) es
  | text t, es => rfl
  | element tag attrs [], es => rfl
  | element tag attrs (n :: ns), es => by
    have inside := build_eventsAll (⟨⟨tag, attrs⟩, nodes⟩ :: frames) [] (n :: ns) (.closing tag :: es)
    calc build frames nodes (events (element tag attrs (n :: ns)) ++ es)
      _ = build (⟨⟨tag, attrs⟩, nodes⟩ :: frames) [] (eventsAll (n :: ns) ++ .closing tag :: es) := by
          simp [events, eventsAll, build]
      _ = build frames (nodes ++ [element tag attrs (n :: ns)]) es := by
          rw [inside, List.nil_append, build]
          exact if_pos rfl

theorem build_eventsAll (frames : List Frame) (nodes : List Node) : (ns : List Node) → (es : List Event) →
    build frames nodes (eventsAll ns ++ es) = build frames (nodes ++ ns) es
  | [], es => by rw [eventsAll, List.nil_append, List.append_nil]
  | n :: ns, es => by
    rw [eventsAll, List.append_assoc, build_events frames nodes n, build_eventsAll frames _ ns,
      List.append_assoc, List.singleton_append]

end

mutual

theorem balanced_events : (n : Node) → {es : List Event} → Balanced es → Balanced (n.events ++ es)
  | text t, es, h => .text t h
  | element tag attrs [], es, h => .single ⟨tag, attrs⟩ h
  | element tag attrs (n :: ns), es, h => by
    have inside : Balanced (eventsAll (n :: ns) ++ []) := balanced_eventsAll (n :: ns) .nil
    have whole := Balanced.element ⟨tag, attrs⟩ inside h
    simpa [events, eventsAll] using whole

theorem balanced_eventsAll : (ns : List Node) → {es : List Event} → Balanced es →
    Balanced (eventsAll ns ++ es)
  | [], es, h => h
  | n :: ns, es, h => by
    rw [eventsAll, List.append_assoc]
    exact balanced_events n (balanced_eventsAll ns h)

end

theorem lexed?_render {n : Node} (plain : n.isPlain = true) : lexed? n.render = some n.events := by
  have all := lex_render n plain [] (.inr (by simp))
  rw [List.append_nil] at all
  rw [lexed?, all]
  simp [Mode.lex, Mode.finish, Mode.textEvents?]

/-- A plain element is read back. -/
theorem read?_eq_some {n : Node} (plain : n.isPlain = true) (root : n.isElement = true) :
    read? n.render = some n := by
  have built : build [] [] n.events = some [n] := by
    have all := build_events [] [] n []
    rw [List.append_nil] at all
    rw [all]
    rfl
  cases n with
  | text t => simp [isElement] at root
  | element tag attrs children => rw [read?, lexed?_render plain, Option.bind_some, built]

end Node

/-- The written form of a tree is read as the tree. So no other tree has this form, and its tags are
balanced. -/
theorem read?_render {n : Node} (plain : n.isPlain = true) (root : n.isElement = true) :
    read? n.render = some n ∧
    (∀ n' : Node, n'.isPlain = true → n'.isElement = true → n'.render = n.render → n' = n) ∧
    ∃ events, lexed? n.render = some events ∧ Balanced events := by
  have back := Node.read?_eq_some plain root
  refine ⟨back, ?_, n.events, Node.lexed?_render plain, ?_⟩
  · intro n' plain' root' same
    have back' := Node.read?_eq_some plain' root'
    rw [same, back] at back'
    exact (Option.some.inj back').symm
  · have balanced := n.balanced_events .nil
    rwa [List.append_nil] at balanced

example : (read? "<a  b=\"1\" ><c></c> 1 > 0</a>".toList).map Node.render =
    some "<a b=\"1\"><c/> 1 &gt; 0</a>".toList := by decide

example : (read? "<a><b></a></b>".toList).isNone = true := by decide

/-- Texts between elements, an element without children, and reserved characters in text and in attributes. -/
def mixedTree : Node :=
  .element "m:r" [("m:val", "a\"<b & 'c'/>".toList), ("xml:space", [])]
    [.text "x < y && z".toList, .element "m:t" [] [], .element "m:t" [("q", "\"".toList)] [.text "</m:t>".toList],
      .text "&amp;".toList]

theorem read?_render_mixed : mixedTree.isPlain = true ∧ mixedTree.isElement = true ∧
    read? mixedTree.render = some mixedTree ∧
    (∀ n' : Node, n'.isPlain = true → n'.isElement = true → n'.render = mixedTree.render → n' = mixedTree) ∧
    ∃ events, lexed? mixedTree.render = some events ∧ Balanced events :=
  have plain : mixedTree.isPlain = true := by decide
  have root : mixedTree.isElement = true := rfl
  ⟨plain, root, read?_render plain root⟩

end OfficeFormula.Omml
