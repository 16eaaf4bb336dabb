import OfficeFormula.Markup.Xml.Document

/-!
# Well-formed text

The rules of XML with namespaces, as rules about a text: how names, values and tags are written, that an
end tag has the name of its start tag, and that labels are declared. They are the rules for a document
that is one element, without a prolog and without comments, literal sections and numbered references; a
`>` in text is written as a reference, so that no end of a literal section stands in it.

A well-formed text has only characters that a document may hold (`WellFormed.isAllowed`).
-/

namespace OfficeFormula.Markup.Xml

/-! ## The rules -/

/-- A name without a colon. -/
def isPlainName : Text → Bool
  | [] => false
  | c :: cs => isNameStart c && cs.all isNameChar

/-- A name, with at most one colon. -/
def isQualifiedName (name : String) : Bool :=
  match name.toList.dropWhile (· ≠ ':') with
  | [] => isPlainName name.toList
  | _ :: second => isPlainName (name.toList.takeWhile (· ≠ ':')) && isPlainName second

/-- A character that is read as it stands. White space is read as a space. -/
def spaced (c : Char) : Char := if isSpace c then ' ' else c

/-- Written text and what it stands for. The characters that are `reserved` are written as references. -/
inductive Spells (reserved : List Char) : (written value : Text) → Prop where
  | nil : Spells reserved [] []
  | char {c : Char} {written value : Text} (allowed : isAllowed c = true) (free : c ∉ reserved)
      (more : Spells reserved written value) : Spells reserved (c :: written) (spaced c :: value)
  | reference {name : String} {c : Char} {written value : Text} (known : (name, c) ∈ namedCharacters)
      (more : Spells reserved written value) :
      Spells reserved ('&' :: (name.toList ++ ';' :: written)) (c :: value)

/-- What cannot stand in text. -/
def textReserved : List Char := ['<', '&', '>']

/-- What cannot stand in a value in quotes. -/
def valueReserved : List Char := ['<', '&', '"']

inductive Attributes : List (String × Text) → Text → Prop where
  | nil : Attributes [] []
  | cons {key : String} {value written rest : Text} {attrs : List (String × Text)} (name : isQualifiedName key = true)
      (spells : Spells valueReserved written value) (more : Attributes attrs rest) :
      Attributes ((key, value) :: attrs) (' ' :: key.toList ++ "=\"".toList ++ written ++ ['"'] ++ rest)

/-- A start tag up to its end: its name, the labels inside it, and its text. -/
inductive Tag (outer : Scope) : String → Scope → Text → Prop where
  | mk {name : String} {attrs : List (String × Text)} {written : Text} {o : Open} (lawful : isQualifiedName name = true)
      (spelled : Attributes attrs written) (opened : open? outer name attrs = some o) :
      Tag outer name o.scope ('<' :: name.toList ++ written)

mutual

/-- An element. -/
inductive Element : Scope → Text → Prop where
  | single {outer inner : Scope} {name : String} {head : Text} (tag : Tag outer name inner head) :
      Element outer (head ++ "/>".toList)
  | paired {outer inner : Scope} {name : String} {head inside : Text} (tag : Tag outer name inner head)
      (content : Content inner inside) :
      Element outer (head ++ '>' :: inside ++ "</".toList ++ name.toList ++ ['>'])

/-- Elements and text between them. -/
inductive Content : Scope → Text → Prop where
  | nil (scope : Scope) : Content scope []
  | text {scope : Scope} {written value rest : Text} (spells : Spells textReserved written value)
      (more : Content scope rest) : Content scope (written ++ rest)
  | element {scope : Scope} {t rest : Text} (element : Element scope t) (more : Content scope rest) :
      Content scope (t ++ rest)

end

/-- The text is a document of one element. -/
def WellFormed (t : Text) : Prop := Element Scope.outermost t

/-! ## The characters of a well-formed text -/

theorem isAllowed_of_isNameChar {c : Char} (h : isNameChar c = true) : isAllowed c = true := by
  simp only [isNameChar, isNameStart, isAllowed, inRanges, nameStartRanges, nameMoreRanges, allowedRanges,
    List.any_cons, List.any_nil, Bool.or_eq_true, Bool.and_eq_true, decide_eq_true_eq, Bool.or_false] at h ⊢
  omega

theorem isAllowed_of_isPlainName {t : Text} (h : isPlainName t = true) : ∀ c ∈ t, isAllowed c = true := by
  cases t with
  | nil => simp
  | cons c cs =>
    rw [isPlainName, Bool.and_eq_true, List.all_eq_true] at h
    rw [List.forall_mem_cons]
    refine ⟨isAllowed_of_isNameChar ?_, fun d hd => isAllowed_of_isNameChar (h.2 d hd)⟩
    rw [isNameChar, h.1, Bool.true_or]

/-- The characters of names are characters of documents. -/
theorem isAllowed_of_isQualifiedName {name : String} (h : isQualifiedName name = true) :
    ∀ c ∈ name.toList, isAllowed c = true := by
  unfold isQualifiedName at h
  split at h
  · exact isAllowed_of_isPlainName h
  · next colon second rest =>
    rw [Bool.and_eq_true] at h
    have last : colon = ':' := by
      have head := List.head?_dropWhile_not (fun c => decide (c ≠ ':')) name.toList
      rw [rest] at head
      simpa using head
    rw [← List.takeWhile_append_dropWhile (p := (· ≠ ':')) (l := name.toList), rest, last]
    rw [List.forall_mem_append, List.forall_mem_cons]
    exact ⟨isAllowed_of_isPlainName h.1, by decide, isAllowed_of_isPlainName h.2⟩

theorem isAllowed_of_namedCharacters : ∀ entry ∈ namedCharacters, ∀ c ∈ entry.1.toList, isAllowed c = true := by
  have all : namedCharacters.all (fun entry => entry.1.toList.all isAllowed) = true := by decide
  intro entry h
  exact List.all_eq_true.1 (List.all_eq_true.1 all entry h)

/-- References are written with characters that are allowed. -/
theorem Spells.isAllowed {reserved : List Char} {written value : Text} (h : Spells reserved written value) :
    ∀ c ∈ written, isAllowed c = true := by
  induction h with
  | nil => simp
  | char allowed _ _ ih => exact List.forall_mem_cons.2 ⟨allowed, ih⟩
  | reference known _ ih =>
    rw [List.forall_mem_cons, List.forall_mem_append, List.forall_mem_cons]
    exact ⟨by decide, isAllowed_of_namedCharacters _ known, by decide, ih⟩

/-- Text without white space and without reserved characters is written as it is. -/
theorem spells_self {reserved : List Char} {t : Text}
    (plain : t.all (fun c => isAllowed c && !reserved.contains c && !isSpace c) = true) :
    Spells reserved t t := by
  induction t with
  | nil => exact .nil
  | cons c cs ih =>
    simp only [List.all_cons, Bool.and_eq_true, Bool.not_eq_true', List.contains_eq_mem,
      decide_eq_false_iff_not] at plain
    have same : spaced c = c := by rw [spaced, plain.1.2]; rfl
    have here := Spells.char plain.1.1.1 plain.1.1.2 (ih (by simpa using plain.2))
    rwa [same] at here

theorem Attributes.isAllowed {attrs : List (String × Text)} {t : Text} (h : Attributes attrs t) :
    ∀ c ∈ t, isAllowed c = true := by
  induction h with
  | nil => simp
  | cons name spells _ ih =>
    simp only [List.forall_mem_append, List.forall_mem_cons]
    have between : ∀ c ∈ "=\"".toList, Xml.isAllowed c = true := List.all_eq_true.1 (by decide)
    exact ⟨⟨⟨⟨⟨by decide, isAllowed_of_isQualifiedName name⟩, between⟩, spells.isAllowed⟩, by decide, by simp⟩, ih⟩

/-- A tag that could be opened has a name. -/
theorem Tag.isQualifiedName {outer inner : Scope} {name : String} {head : Text} (tag : Tag outer name inner head) :
    Xml.isQualifiedName name = true := by
  cases tag with
  | mk lawful _ _ => exact lawful

theorem Tag.isAllowed {outer inner : Scope} {name : String} {head : Text} (tag : Tag outer name inner head) :
    ∀ c ∈ head, isAllowed c = true := by
  cases tag with
  | mk lawful spelled _ =>
    rw [List.forall_mem_append, List.forall_mem_cons]
    exact ⟨⟨by decide, isAllowed_of_isQualifiedName lawful⟩, spelled.isAllowed⟩

mutual

theorem Element.isAllowed {scope : Scope} {t : Text} : Element scope t → ∀ c ∈ t, isAllowed c = true
  | .single tag => by
    have closing : ∀ c ∈ "/>".toList, Xml.isAllowed c = true := List.all_eq_true.1 (by decide)
    rw [List.forall_mem_append]
    exact ⟨tag.isAllowed, closing⟩
  | .paired tag content => by
    have inside := content.isAllowed
    simp only [List.forall_mem_append, List.forall_mem_cons]
    have closing : ∀ c ∈ "</".toList, Xml.isAllowed c = true := List.all_eq_true.1 (by decide)
    exact ⟨⟨⟨⟨tag.isAllowed, by decide, inside⟩, closing⟩, isAllowed_of_isQualifiedName tag.isQualifiedName⟩,
      by decide, by simp⟩

theorem Content.isAllowed {scope : Scope} {t : Text} : Content scope t → ∀ c ∈ t, isAllowed c = true
  | .nil _ => by simp
  | .text spells more => by
    rw [List.forall_mem_append]
    exact ⟨spells.isAllowed, more.isAllowed⟩
  | .element element more => by
    rw [List.forall_mem_append]
    exact ⟨element.isAllowed, more.isAllowed⟩

end

/-- A well-formed text has only characters that a document may hold. -/
theorem WellFormed.isAllowed {t : Text} (h : WellFormed t) : ∀ c ∈ t, isAllowed c = true :=
  Element.isAllowed h

end OfficeFormula.Markup.Xml
