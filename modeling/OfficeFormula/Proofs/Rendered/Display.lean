import OfficeFormula.Proofs.Markup.Attributes
import OfficeFormula.Proofs.Rendered.Clipboard

/-!
# Formulas on a line of their own

Whether a formula of a page stands on a line of its own is told twice: by the container itself, for the wrapper,
and by the written form of the container, for the markup inside the wrapper. The two agree on every container that
has a class for this, and on every container of MathJax with the attribute whose values are all written without the
end of a tag. On any other container they agree exactly if its attribute says what its written form does
(`wrapper_agrees_iff`).

The written form is looked through for marks as for any other text (`DisplayMark`), and no end of a tag may come
before the mark. None comes from the name of an attribute on a page that has been read. A value has one only in a
stretch that is not escaped.
-/

namespace OfficeFormula.Rendered

open Markup (Attr Node escape escapeChar)
open Markup.Html (Element AreNames Proper areNames_nil proper_element proper_text dropElements dropElementsAll
  readFragment render renderAll renderAttr renderValue quote escapeValue escapeBeyond escapeLinkChar isLink
  booleanAttributes)

/-! ## Containers of a page -/

/-- The containers of a written page that are replaced. -/
def containersOf (page : Text) : List Element :=
  (setAsideContainers (dropElementsAll removedElements (nodesOf page))).1

mutual

theorem proper_dropElements {names : List String} :
    (n : Node) → Proper n → ∀ m ∈ dropElements names n, Proper m
  | .element name attrs children, h => by
    rw [proper_element] at h
    rw [dropElements]
    split
    · simp
    · simpa [proper_element] using ⟨h.1, proper_dropElementsAll children h.2⟩
  | .text t, h => by simpa [dropElements] using h
  | .comment t, h => by simpa [dropElements] using h

theorem proper_dropElementsAll {names : List String} :
    (ns : List Node) → (∀ n ∈ ns, Proper n) → ∀ m ∈ dropElementsAll names ns, Proper m
  | [], _ => by simp [dropElementsAll]
  | n :: ns, h => by
    rw [List.forall_mem_cons] at h
    rw [dropElementsAll, List.forall_mem_append]
    exact ⟨proper_dropElements n h.1, proper_dropElementsAll ns h.2⟩

end

/-- The containers that have been set aside and the nodes that are left have names for attributes. -/
def ProperParts (s : List Element × List Node) : Prop :=
  (∀ e ∈ s.1, AreNames e.attrs) ∧ ∀ n ∈ s.2, Proper n

mutual

theorem proper_setAside {c : Container} {found : List Element} (old : ∀ e ∈ found, AreNames e.attrs) :
    (n : Node) → Proper n → ProperParts ((setAside c found n).1, [(setAside c found n).2])
  | .element name attrs children, h => by
    rw [proper_element] at h
    cases holds : c.holds ⟨name, attrs, children⟩ with
    | true =>
      rw [setAside_of_holds holds]
      refine ⟨by simpa [or_imp, forall_and] using ⟨old, h.1⟩, ?_⟩
      simp [wrapper, proper_element, areNames_nil, proper_text]
    | false =>
      obtain ⟨all, nodes⟩ := proper_setAsideAll old children h.2
      rw [setAside_of_not_holds holds]
      exact ⟨all, by simpa [proper_element] using ⟨h.1, nodes⟩⟩
  | .text t, h => by simpa [setAside, ProperParts] using ⟨old, h⟩
  | .comment t, h => by simpa [setAside, ProperParts] using ⟨old, h⟩

theorem proper_setAsideAll {c : Container} {found : List Element} (old : ∀ e ∈ found, AreNames e.attrs) :
    (ns : List Node) → (∀ n ∈ ns, Proper n) → ProperParts (setAsideAll c found ns)
  | [], _ => by simpa [setAsideAll, ProperParts] using old
  | n :: ns, h => by
    rw [List.forall_mem_cons] at h
    obtain ⟨first, node⟩ := proper_setAside (c := c) old n h.1
    obtain ⟨all, nodes⟩ := proper_setAsideAll (c := c) first ns h.2
    rw [setAsideAll_cons]
    exact ⟨all, by simpa using ⟨by simpa using node, nodes⟩⟩

end

theorem proper_of_mem_nodesOf (page : Text) : ∀ n ∈ nodesOf page, Proper n := by
  rw [nodesOf]
  cases read : readFragment page with
  | error reason => simp [Except.toOption]
  | ok ns => exact Markup.Html.proper_of_mem_readFragment read

theorem areNames_of_mem_containersOf {page : Text} : ∀ e ∈ containersOf page, AreNames e.attrs := by
  have run (cs : List Container) (s : List Element × List Node) (h : ProperParts s) :
      ProperParts (cs.foldl (fun s c => setAsideAll c s.1 s.2) s) := by
    induction cs generalizing s with
    | nil => exact h
    | cons c cs ih => exact ih _ (proper_setAsideAll h.1 s.2 h.2)
  have page : ∀ n ∈ dropElementsAll removedElements (nodesOf page), Proper n :=
    proper_dropElementsAll _ (proper_of_mem_nodesOf page)
  exact (run Container.all ([], _) ⟨by simp, page⟩).1

/-! ## Marks -/

/-- The spellings of a mark of formulas that stand on a line of their own. -/
inductive DisplayMark : Text → Prop where
  /-- A class, in letters of either case. -/
  | word {m : Text} (folded : m.map foldCase ∈ ["katex-display".toList, "mathjax_display".toList]) : DisplayMark m
  /-- An attribute in a tag of MathJax, in letters of either case and with or without a quote. -/
  | tag {name between key quote value : Text} (isName : name.map foldCase = "mjx-container".toList)
      (ne : between ≠ []) (inTag : '>' ∉ between) (isKey : key.map foldCase = "display=".toList)
      (isQuote : quote ∈ [[], ['"'], ['\'']]) (isValue : value.map foldCase ∈ ["true".toList, "block".toList]) :
      DisplayMark (name ++ between ++ key ++ quote ++ value)

theorem startsWithWord_or_iff {t u v : Text} :
    (Text.startsWithWord u t || Text.startsWithWord v t) = true ↔
      ∃ m rest, t = m ++ rest ∧ m.map foldCase ∈ [u, v] := by
  simp only [Bool.or_eq_true, Text.startsWithWord_iff, List.mem_cons, List.not_mem_nil, or_false]
  constructor
  · rintro (⟨m, rest, split, folded⟩ | ⟨m, rest, split, folded⟩)
    · exact ⟨m, rest, split, .inl folded⟩
    · exact ⟨m, rest, split, .inr folded⟩
  · rintro ⟨m, rest, split, folded | folded⟩
    · exact .inl ⟨m, rest, split, folded⟩
    · exact .inr ⟨m, rest, split, folded⟩

theorem asksForDisplay_iff {t : Text} : asksForDisplay t = true ↔
    ∃ key quote value rest, t = key ++ quote ++ value ++ rest ∧ key.map foldCase = "display=".toList ∧
      quote ∈ [[], ['"'], ['\'']] ∧ value.map foldCase ∈ ["true".toList, "block".toList] := by
  unfold asksForDisplay
  constructor
  · intro h
    split at h
    · simp at h
    · next after found =>
      obtain ⟨key, rfl, folded⟩ := Text.exists_append_of_afterWord? found
      obtain ⟨value, rest, split, isValue⟩ := startsWithWord_or_iff.1 h
      split at split
      · exact ⟨key, ['"'], value, rest, by simp [split], folded, by simp, isValue⟩
      · exact ⟨key, ['\''], value, rest, by simp [split], folded, by simp, isValue⟩
      · exact ⟨key, [], value, rest, by simp [split], folded, by simp, isValue⟩
  · rintro ⟨key, quote, value, rest, rfl, folded, isQuote, isValue⟩
    rw [List.append_assoc, List.append_assoc, Text.afterWord?_append folded]
    dsimp only
    rw [startsWithWord_or_iff]
    refine ⟨value, rest, ?_, isValue⟩
    simp only [List.mem_cons, List.not_mem_nil, or_false] at isQuote
    rcases isQuote with rfl | rfl | rfl
    · -- A value does not begin with a quote.
      cases value with
      | nil => simp at isValue
      | cons c cs =>
        rw [List.nil_append, List.cons_append]
        split
        · next eq =>
          obtain ⟨rfl, -⟩ := List.cons.inj eq
          exact absurd isValue (by simp [foldCase])
        · next eq =>
          obtain ⟨rfl, -⟩ := List.cons.inj eq
          exact absurd isValue (by simp [foldCase])
        · rfl
    · rfl
    · rfl

theorem asksInContainer_iff {t : Text} : asksInContainer t = true ↔
    ∃ name between more, t = name ++ between ++ more ∧ name.map foldCase = "mjx-container".toList ∧
      between ≠ [] ∧ '>' ∉ between ∧ asksForDisplay more = true := by
  unfold asksInContainer
  constructor
  · intro h
    split at h
    · simp at h
    · next after found =>
      obtain ⟨name, rfl, folded⟩ := Text.exists_append_of_afterWord? found
      obtain ⟨between, more, rfl, ne, all, asks⟩ := Text.before₁?_isSome_iff.1 h
      exact ⟨name, between, more, by simp, folded, ne, fun mem => by simpa using all '>' mem, asks⟩
  · rintro ⟨name, between, more, rfl, folded, ne, inTag, asks⟩
    rw [List.append_assoc, Text.afterWord?_append folded]
    exact Text.before₁?_isSome_iff.2 ⟨between, more, rfl, ne, Text.forall_ne_of_not_mem inTag, asks⟩

/-- Markup is taken for a formula on a line of its own exactly if it has a mark in it. -/
theorem isDisplayMarkup_iff {markup : Text} : isDisplayMarkup markup = true ↔ ∃ m, DisplayMark m ∧ m <:+: markup := by
  simp only [isDisplayMarkup, Text.hasSuffix_iff, Bool.or_eq_true (_ || _), startsWithWord_or_iff, asksInContainer_iff,
    asksForDisplay_iff]
  constructor
  · rintro ⟨u, suffix, ⟨m, rest, rfl, folded⟩ | ⟨name, between, more, rfl, isName, ne, inTag, asks⟩⟩
    · exact ⟨m, .word folded, (List.prefix_append m rest).isInfix.trans suffix.isInfix⟩
    · obtain ⟨key, quote, value, rest, rfl, isKey, isQuote, isValue⟩ := asks
      refine ⟨_, .tag isName ne inTag isKey isQuote isValue, .trans ?_ suffix.isInfix⟩
      exact ⟨[], rest, by simp⟩
  · rintro ⟨m, mark, before, after, rfl⟩
    refine ⟨m ++ after, ⟨before, by simp⟩, ?_⟩
    cases mark with
    | word folded => exact .inl ⟨m, after, rfl, folded⟩
    | @tag name between key quote value isName ne inTag isKey isQuote isValue =>
      refine .inr ⟨name, between, key ++ quote ++ value ++ after, by simp, isName, ne, inTag, ?_⟩
      exact ⟨key, quote, value, after, rfl, isKey, isQuote, isValue⟩

/-! ## What a formula is converted to -/

/-- The written form of a formula asks for a line of its own. -/
inductive AsksForLine (markup : Text) : Prop where
  /-- There is a mark in it. -/
  | mark {m : Text} (isMark : DisplayMark m) (inside : m <:+: markup)
  /-- Its source is that of a script for such formulas. -/
  | script {source : Text} {e : Element} (first : firstFilled? Place.latex (elementsOf markup) = some (source, e))
      (display : isDisplayScript e = true)
  /-- Its MathML asks for it. -/
  | mathML {root math : Node} (read : mathML? markup = some root) (found : MathML.findMath? root = some math)
      (display : MathML.asksForDisplay math = true)

theorem display_lowerTree (host : Host) (source : MathML.Source) (root : Node) (display : Option Bool) :
    (MathML.lowerTree host source root display).display =
      display.getD ((MathML.findMath? root).any MathML.asksForDisplay) := by
  unfold MathML.lowerTree
  cases MathML.findMath? root with
  | none => rfl
  | some math =>
    dsimp only
    cases host.mathMLFailure? math with
    | none => rfl
    | some interruption => rfl

theorem display_latexLower (host : Host) (engine : Latex.Engine) (source : Text) (display : Bool) :
    (Latex.lower host engine source display).display = display := by
  have native (formula : Text) : (Latex.lowerNative host source formula display).display = display := by
    unfold Latex.lowerNative
    cases host.latexFailure? (Latex.tokenize formula) with
    | some cause => rfl
    | none =>
      dsimp only
      cases (Latex.parse formula).markup with
      | ok nodes => rfl
      | error e => rfl
  have mathML (t : Text) : (MathML.lower host (.text t) (some display)).display = display := by
    unfold MathML.lower
    dsimp only
    cases Markup.Xml.read? t.trim with
    | none => rfl
    | some root => exact display_lowerTree host (.text t) root (some display)
  unfold Latex.lower
  dsimp only
  split
  · cases host.converter (Latex.repairLineBreaks source.trim) display with
    | ok t => exact mathML t
    | error reason => exact native _
  · exact native _

theorem display_lower (settings : Settings) (markup : Text) :
    (lower settings markup).display =
      ((latexSource? markup).2 || ((mathML? markup).bind MathML.findMath?).any MathML.asksForDisplay) := by
  unfold lower
  obtain ⟨latex, display⟩ := latexSource? markup
  cases mathML? markup with
  | some root =>
    have tree := display_lowerTree settings.host (.tree root) root (if display then some true else none)
    cases display
    · exact tree
    · exact tree
  | none =>
    dsimp only
    cases latex.or (plainText? markup) with
    | some source => simpa using display_latexLower settings.host settings.engine source display
    | none => simp [Lowered.ofText]

theorem latexSource?_iff {markup : Text} :
    (latexSource? markup).2 = true ↔ isDisplayMarkup markup = true ∨
      ∃ source e, firstFilled? Place.latex (elementsOf markup) = some (source, e) ∧ isDisplayScript e = true := by
  unfold latexSource?
  cases firstFilled? Place.latex (elementsOf markup) with
  | none => simp
  | some found =>
    obtain ⟨source, e⟩ := found
    simp only [Bool.or_eq_true, Option.some.injEq, Prod.mk.injEq]
    refine or_congr_right ⟨fun display => ⟨source, e, ⟨rfl, rfl⟩, display⟩, ?_⟩
    rintro ⟨_, _, ⟨rfl, rfl⟩, display⟩
    exact display

/-- A formula is converted to a paragraph exactly if its written form asks for a line of its own. -/
theorem display_lower_iff {settings : Settings} {markup : Text} :
    (lower settings markup).display = true ↔ AsksForLine markup := by
  rw [display_lower, Bool.or_eq_true, latexSource?_iff, isDisplayMarkup_iff, Option.any_eq_true]
  constructor
  · rintro ((⟨m, isMark, inside⟩ | ⟨source, e, first, display⟩) | ⟨math, found, display⟩)
    · exact .mark isMark inside
    · exact .script first display
    · obtain ⟨root, read, found⟩ := Option.bind_eq_some_iff.1 found
      exact .mathML read found display
  · intro h
    cases h with
    | mark isMark inside => exact .inl (.inl ⟨_, isMark, inside⟩)
    | script first display => exact .inl (.inr ⟨_, _, first, display⟩)
    | mathML read found display => exact .inr ⟨_, Option.bind_eq_some_iff.2 ⟨_, read, found⟩, display⟩

/-! ## Containers that tell it themselves -/

/-- The container has a class of formulas on a line of their own. -/
def hasDisplayClass (e : Element) : Bool :=
  let classes := ((e.attr? "class").getD []).wordsBy isBlank
  classes.contains "katex-display".toList || classes.contains "MathJax_Display".toList

/-- The container has the attribute of formulas on a line of their own. -/
def hasDisplayAttribute (e : Element) : Bool :=
  e.attr? "display" == some "true".toList || e.attr? "display" == some "block".toList

/-- The value of an attribute is written with the end of a tag in it. -/
def hasTagEnd (a : Attr) : Bool := List.contains (escapeValue (a.2.getD [])) '>'

/-- The container tells in its written form that the formula stands on a line of its own. -/
def isMarked (e : Element) : Bool :=
  hasDisplayClass e || e.name = "mjx-container" && hasDisplayAttribute e && !e.attrs.any hasTagEnd

theorem isDisplayContainer_eq (e : Element) : isDisplayContainer e = (hasDisplayClass e || hasDisplayAttribute e) := by
  simp [isDisplayContainer, hasDisplayClass, hasDisplayAttribute, Bool.or_assoc]

/-! ## Written attributes -/

theorem exists_of_attr? {attrs : List Attr} {key : String} {value : Text} (h : Markup.attr? attrs key = some value)
    (ne : value ≠ []) : ∃ before after, attrs = before ++ (key, some value) :: after := by
  obtain ⟨found, lookup, value⟩ := Option.map_eq_some_iff.1 h
  obtain ⟨before, after, rfl, -⟩ := List.lookup_eq_some_iff.1 lookup
  cases found with
  | none => exact absurd value.symm ne
  | some t =>
    obtain rfl : t = _ := value
    exact ⟨before, after, rfl⟩

theorem exists_render (e : Element) :
    ∃ rest, render false e.node = '<' :: e.name.toList ++ e.attrs.flatMap (renderAttr e.name) ++ '>' :: rest := by
  rw [Element.node, render]
  split
  · exact ⟨[], rfl⟩
  · refine ⟨renderAll (Markup.Html.rawElements.contains e.name) e.children ++ "</".toList ++ e.name.toList ++ ['>'], ?_⟩
    simp only [List.append_assoc, List.cons_append, List.nil_append]

theorem infix_flatMap {f : Char → Text} {w t : Text} (inside : w <:+: t) (same : ∀ c ∈ w, f c = [c]) :
    w <:+: t.flatMap f := by
  obtain ⟨before, after, rfl⟩ := inside
  have kept : w.flatMap f = w := by
    rw [List.flatMap_def, List.map_congr_left same, ← List.flatMap_def]
    exact List.flatMap_singleton' w
  exact ⟨before.flatMap f, after.flatMap f, by rw [List.flatMap_append, List.flatMap_append, kept]⟩

theorem infix_quote {w t : Text} (inside : w <:+: t) (plain : '"' ∉ w) : w <:+: quote t := by
  have other : ∀ c ∈ w, (if c = '"' then "&quot;".toList else [c]) = [c] := fun c hc =>
    if_neg fun same : c = '"' => plain (same ▸ hc)
  unfold quote
  split
  · exact inside.trans ⟨['"'], ['"'], rfl⟩
  · split
    · exact inside.trans ⟨['\''], ['\''], rfl⟩
    · exact (infix_flatMap inside other).trans ⟨['"'], ['"'], rfl⟩

/-- A character of a value is written as it is, or escaped. -/
theorem escapeBeyond_cons (kept : Nat) (c : Char) (cs : Text) :
    (∃ n, escapeBeyond kept (c :: cs) = c :: escapeBeyond n cs) ∨
      escapeBeyond kept (c :: cs) = escapeChar c ++ escapeBeyond 0 cs := by
  cases kept with
  | succ n => exact .inl ⟨n, rfl⟩
  | zero =>
    rw [escapeBeyond]
    split
    · exact .inl ⟨_, rfl⟩
    · exact .inr rfl

/-- A word that is not escaped stays at the head of a value. -/
theorem prefix_escapeBeyond {w t : Text} (same : ∀ c ∈ w, escapeChar c = [c]) (inside : w <+: t) (kept : Nat) :
    w <+: escapeBeyond kept t := by
  induction w generalizing t kept with
  | nil => exact List.nil_prefix
  | cons c w ih =>
    obtain ⟨rest, rfl⟩ := inside
    rw [List.forall_mem_cons] at same
    have later (n : Nat) : c :: w <+: c :: escapeBeyond n (w ++ rest) :=
      (List.prefix_cons_inj c).2 (ih same.2 (List.prefix_append w rest) n)
    rcases escapeBeyond_cons kept c (w ++ rest) with ⟨n, written⟩ | written
    · exact written ▸ later n
    · rw [same.1] at written
      exact written ▸ later 0

/-- A word that is not escaped stays in a value, whatever stands around it. -/
theorem infix_escapeBeyond {w t : Text} (same : ∀ c ∈ w, escapeChar c = [c]) (inside : w <:+: t) (kept : Nat) :
    w <:+: escapeBeyond kept t := by
  induction t generalizing kept with
  | nil => exact inside
  | cons c cs ih =>
    rcases List.infix_cons_iff.1 inside with here | later
    · exact (prefix_escapeBeyond same here kept).isInfix
    · rcases escapeBeyond_cons kept c cs with ⟨n, written⟩ | written
      · exact written ▸ (ih later n).trans (List.suffix_cons c _).isInfix
      · exact written ▸ (ih later 0).trans (List.suffix_append _ _).isInfix

/-- A word without reserved characters stays in the value of a class. -/
theorem infix_renderAttr_class {w value : Text} (inside : w <:+: value)
    (plain : ['&', '<', '>', '"'].all (· ∉ w) = true) (tag : String) :
    w <:+: renderAttr tag ("class", some value) := by
  have plain : ∀ d ∈ ['&', '<', '>', '"'], d ∉ w := fun d hd => by simpa using List.all_eq_true.1 plain d hd
  have written : renderAttr tag ("class", some value) = " class=".toList ++ quote (escapeValue value) := by
    simp [renderAttr, renderValue, isLink, booleanAttributes]
  have same : ∀ c ∈ w, escapeChar c = [c] := fun c hc => by
    have alone : escape [c] = [c] := Markup.escape_eq_self fun d hd mem =>
      plain d (List.mem_append_left ['"'] hd) (List.mem_singleton.1 mem ▸ hc)
    simpa [escape] using alone
  rw [written]
  exact (infix_quote (infix_escapeBeyond same inside 0) (plain '"' (by simp))).trans (List.suffix_append _ _).isInfix

theorem not_mem_flatMap {α : Type} {f : α → Text} {d : Char} {t : List α} (h : ∀ c ∈ t, d ∉ f c) :
    d ∉ t.flatMap f := by
  intro mem
  obtain ⟨c, hc, hd⟩ := List.mem_flatMap.1 mem
  exact h c hc hd

theorem tagEnd_not_mem_escapeLinkChar {c : Char} (other : c ≠ '>') : '>' ∉ escapeLinkChar c := by
  have bytes : ∀ n < 256, '>' ∉ '%' :: (Text.hexDigits 2 n).map Char.toUpper := by decide +kernel
  unfold escapeLinkChar
  split
  · simpa using other.symm
  · intro mem
    obtain ⟨b, -, hb⟩ := List.mem_flatMap.1 mem
    exact bytes b.toNat b.toNat_lt hb

theorem tagEnd_not_mem_quote {t : Text} (h : '>' ∉ t) : '>' ∉ quote t := by
  have enclosed {c : Char} (other : c ≠ '>') {u : Text} (h : '>' ∉ u) : '>' ∉ c :: u ++ [c] := by
    simpa [other.symm] using h
  unfold quote
  split
  · exact enclosed (by decide) h
  · split
    · exact enclosed (by decide) h
    · refine enclosed (by decide) (not_mem_flatMap fun c hc => ?_)
      split
      · decide
      · exact fun same => h (List.mem_singleton.1 same ▸ hc)

/-- A written attribute does not end the tag, unless its value does. -/
theorem tagEnd_not_mem_renderAttr {a : Attr} (name : ∀ c ∈ a.1.toList, Markup.Html.endsName c = false)
    (free : hasTagEnd a = false) (tag : String) : '>' ∉ renderAttr tag a := by
  have inName : '>' ∉ a.1.toList := fun mem => absurd (name '>' mem) (by decide)
  have inValue (value : Text) (h : '>' ∉ escapeValue value) : '>' ∉ renderValue tag a.1 value := by
    refine tagEnd_not_mem_quote ?_
    split
    · refine not_mem_flatMap fun c hc => tagEnd_not_mem_escapeLinkChar fun same => ?_
      exact h (same ▸ (List.dropWhile_suffix _).subset hc)
    · exact h
  unfold renderAttr
  cases given : a.2 with
  | none => simp [inName]
  | some value =>
    have value := inValue value (by simpa [hasTagEnd, given] using free)
    split <;> simp [inName, value]

/-! ## Agreement -/

theorem exists_render_of_attr? {e : Element} {key : String} {value : Text} (h : e.attr? key = some value)
    (ne : value ≠ []) : ∃ before after rest, e.attrs = before ++ (key, some value) :: after ∧
      render false e.node = '<' :: e.name.toList ++ before.flatMap (renderAttr e.name) ++
        renderAttr e.name (key, some value) ++ rest := by
  obtain ⟨before, after, split⟩ := exists_of_attr? h ne
  obtain ⟨rest, written⟩ := exists_render e
  refine ⟨before, after, after.flatMap (renderAttr e.name) ++ '>' :: rest, split, ?_⟩
  rw [written, split]
  simp

/-- A container with a class of formulas on a line of their own has the class in its written form. -/
theorem AsksForLine.of_hasDisplayClass {e : Element} (h : hasDisplayClass e = true) :
    AsksForLine (render false e.node) := by
  simp only [hasDisplayClass, Bool.or_eq_true, List.contains_iff_mem] at h
  obtain ⟨word, folded, plain, mem⟩ : ∃ word : Text,
      word.map foldCase ∈ ["katex-display".toList, "mathjax_display".toList] ∧
        ['&', '<', '>', '"'].all (· ∉ word) = true ∧
        word ∈ ((e.attr? "class").getD []).wordsBy isBlank := by
    rcases h with mem | mem
    · exact ⟨"katex-display".toList, by decide, by decide, mem⟩
    · exact ⟨"MathJax_Display".toList, by decide, by decide, mem⟩
  cases found : e.attr? "class" with
  | none => simp [found, Text.wordsBy] at mem
  | some value =>
    rw [found, Option.getD_some] at mem
    have ne : value ≠ [] := by
      rintro rfl
      simp [Text.wordsBy] at mem
    obtain ⟨before, after, rest, -, written⟩ := exists_render_of_attr? found ne
    have inside := infix_renderAttr_class (Text.infix_of_mem_wordsBy mem) plain e.name
    rw [written]
    exact .mark (.word folded) (inside.trans (List.infix_append _ _ rest))

/-- A container of MathJax with the attribute has it in the written form of its start tag. -/
theorem AsksForLine.of_hasDisplayAttribute {e : Element} (names : AreNames e.attrs)
    (free : ∀ a ∈ e.attrs, hasTagEnd a = false) (isMathJax : e.name = "mjx-container")
    (h : hasDisplayAttribute e = true) : AsksForLine (render false e.node) := by
  obtain ⟨value, found, ne, folded, writtenValue⟩ : ∃ value : Text, e.attr? "display" = some value ∧ value ≠ [] ∧
      value.map foldCase ∈ ["true".toList, "block".toList] ∧
      renderAttr e.name ("display", some value) = " display=\"".toList ++ value ++ ['"'] := by
    simp only [hasDisplayAttribute, Bool.or_eq_true, beq_iff_eq] at h
    rw [isMathJax]
    rcases h with found | found
    · exact ⟨"true".toList, found, by decide, by decide, by decide⟩
    · exact ⟨"block".toList, found, by decide, by decide, by decide⟩
  obtain ⟨before, after, rest, split, written⟩ := exists_render_of_attr? found ne
  have inTag : '>' ∉ before.flatMap (renderAttr e.name) ++ [' '] := by
    have attrs : '>' ∉ before.flatMap (renderAttr e.name) :=
      not_mem_flatMap fun a ha =>
        have mem : a ∈ e.attrs := by simp [split, ha]
        tagEnd_not_mem_renderAttr (names a mem) (free a mem) e.name
    simpa using attrs
  have isName : e.name.toList.map foldCase = "mjx-container".toList := by
    rw [isMathJax]
    decide
  have isKey : "display=".toList.map foldCase = "display=".toList := by decide
  have isQuote : ['"'] ∈ [[], ['"'], ['\'']] := by decide
  refine .mark (.tag isName (by simp) inTag isKey isQuote folded) ⟨['<'], '"' :: rest, ?_⟩
  rw [written, writtenValue]
  simp

/-- A paragraph is told from a formula inside a line by its first characters. -/
theorem template_injective {d d' : Bool} {t t' : Text} (h : Omml.template d t = Omml.template d' t') : d = d' := by
  have start (d : Bool) (t : Text) :
      (Omml.template d t).take 9 = if d then "<m:oMathP".toList else "<m:oMath ".toList := by
    cases d with
    | true => rfl
    | false =>
      rw [Omml.template, if_neg (by decide), Omml.formulaElement]
      split
      · rfl
      · rfl
  have same := congrArg (List.take 9) h
  rw [start, start] at same
  revert same
  cases d <;> cases d' <;> decide

/-- What a container is converted to is a paragraph or a formula inside a line as its written form asks for. -/
theorem exists_converted_iff (settings : Settings) (e : Element) (display : Bool) :
    (∃ inner, converted settings e = Omml.template display inner) ↔
      (lower settings (render false e.node)).display = display := by
  have pasted := (pasted_compileForClipboard settings (render false e.node)).text
  constructor
  · rintro ⟨inner, h⟩
    exact template_injective (pasted.symm.trans h)
  · rintro rfl
    exact ⟨_, pasted⟩

/-- The wrapper is a block exactly for a display container. -/
theorem wrapper_eq_div_iff {e : Element} {word : Text} :
    wrapper e word = .element "div" [] [.text word] ↔ isDisplayContainer e = true := by
  unfold wrapper
  split <;> simp [*]

theorem wrapper_eq_span_iff {e : Element} {word : Text} :
    wrapper e word = .element "span" [] [.text word] ↔ isDisplayContainer e = false := by
  unfold wrapper
  split <;> simp [*]

/-- A container that is marked has a wrapper for formulas on a line of their own, and the mark in its written form. -/
theorem displayed_of_isMarked {e : Element} (names : AreNames e.attrs) (h : isMarked e = true) :
    isDisplayContainer e = true ∧ AsksForLine (render false e.node) := by
  rw [isDisplayContainer_eq]
  simp only [isMarked, Bool.or_eq_true, Bool.and_eq_true, decide_eq_true_eq, Bool.not_eq_true', List.any_eq_false,
    Bool.not_eq_true] at h ⊢
  rcases h with byClass | ⟨⟨isMathJax, byAttribute⟩, free⟩
  · exact ⟨.inl byClass, .of_hasDisplayClass byClass⟩
  · exact ⟨.inr byAttribute, .of_hasDisplayAttribute names free isMathJax byAttribute⟩

theorem isDisplayContainer_of_not_isMarked {e : Element} (h : isMarked e = false) :
    isDisplayContainer e = hasDisplayAttribute e := by
  have noClass : hasDisplayClass e = false := (Bool.or_eq_false_iff.1 h).1
  rw [isDisplayContainer_eq, noClass, Bool.false_or]

/-- The wrapper of a container is of the same kind as the markup in it exactly if the container is marked itself, or
its attribute says the same as its written form. -/
theorem wrapper_agrees_iff (settings : Settings) {page : Text} {e : Element} (found : e ∈ containersOf page)
    (word : Text) :
    ((wrapper e word = .element "div" [] [.text word] ↔ ∃ inner, converted settings e = Omml.template true inner) ∧
        (wrapper e word = .element "span" [] [.text word] ↔
          ∃ inner, converted settings e = Omml.template false inner)) ↔
      isMarked e = true ∨ (hasDisplayAttribute e = true ↔ AsksForLine (render false e.node)) := by
  have inLine : (lower settings (render false e.node)).display = false ↔ ¬AsksForLine (render false e.node) := by
    rw [← display_lower_iff, Bool.not_eq_true]
  rw [exists_converted_iff, exists_converted_iff, display_lower_iff, inLine, wrapper_eq_div_iff, wrapper_eq_span_iff,
    ← Bool.not_eq_true]
  -- The second half says the same as the first.
  rw [and_iff_left_of_imp not_congr]
  cases marked : isMarked e with
  | true =>
    obtain ⟨div, paragraph⟩ := displayed_of_isMarked (areNames_of_mem_containersOf e found) marked
    exact iff_of_true (iff_of_true div paragraph) (.inl rfl)
  | false => simp [isDisplayContainer_of_not_isMarked marked]

/-- A page with a container of MathJax whose attribute stands behind a link with an end of a tag in it. -/
def linkedPage : Text := "<mjx-container src=\"a>b\" display=\"block\">x</mjx-container>".toList

theorem wrapper_agrees_iff_linkedPage :
    ∃ e ∈ containersOf linkedPage, e.attrs = [("src", some "a>b".toList), ("display", some "block".toList)] ∧
      wrapper e [] = .element "div" [] [.text []] ∧
      ∃ inner, converted nativeSettings e = Omml.template true inner := by
  have parts : ([("src", some "a>b".toList), ("display", some "block".toList)], true) ∈
      (containersOf linkedPage).map fun e => (e.attrs, isMarked e) := by
    decide +kernel
  obtain ⟨e, found, eq⟩ := List.mem_map.1 parts
  obtain ⟨attrs, marked⟩ := Prod.mk.inj eq
  have names := areNames_of_mem_containersOf e found
  have div : wrapper e [] = .element "div" [] [.text []] :=
    wrapper_eq_div_iff.2 (displayed_of_isMarked names marked).1
  exact ⟨e, found, attrs, div, ((wrapper_agrees_iff nativeSettings found []).2 (.inl marked)).1.1 div⟩

/-- A page with a formula of KaTeX whose MathML asks for a line of its own. -/
def blockPage : Text := "<span class=\"katex\"><math display=\"block\"><mi>x</mi></math></span>".toList

/-- A paragraph is pasted inside a wrapper for formulas in a line. -/
theorem wrapper_disagrees_blockPage :
    let paragraph := Omml.template true "<m:r><m:t>x</m:t></m:r>".toList
    (containersOf blockPage).map (fun e => (wrapperTag e, converted nativeSettings e)) =
        [("span".toList, paragraph)] ∧
      (convertPage nativeSettings blockPage).run.value.toOption =
        some ("<span>".toList ++ paragraph ++ "</span>".toList) := by
  decide +kernel

end OfficeFormula.Rendered
