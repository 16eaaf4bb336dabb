import OfficeFormula.Markup.Html.Fragment
import OfficeFormula.Markup.Html.Select
import OfficeFormula.Proofs.Text.Fold
import OfficeFormula.Proofs.Text.Reader

/-!
# Names of attributes

The name of an attribute ends before white space, a slash or the end of the tag. So no attribute of a tree that has
been read has such a character in its name (`proper_of_mem_readFragment`), whatever the text is and however the end
of an element is implied.
-/

namespace OfficeFormula.Markup.Html

open Reader (Gives gives_pure gives_bind gives_char gives_takeWhile)

/-- The names of the attributes have no character that ends a name. -/
def AreNames (attrs : List Attr) : Prop := ∀ a ∈ attrs, ∀ c ∈ a.1.toList, endsName c = false

theorem areNames_nil : AreNames [] := by simp [AreNames]

/-! ## Tags -/

theorem endsName_toLower {c : Char} (h : endsName c = false) : endsName c.toLower = false := by
  cases lower : endsName c.toLower with
  | false => rfl
  | true =>
    have other : isAsciiLetter c.toLower = false := by
      simp only [endsName, isSpace, Bool.or_eq_true, beq_iff_eq] at lower
      rcases lower with (((((h | h) | h) | h) | h) | h) | h <;> (rw [h]; decide)
    rw [← eq_of_toLower_eq rfl other, h] at lower
    exact lower.symm

/-- A name is read up to a character that ends names. -/
theorem gives_attrName : Gives (fun name : String => ∀ c ∈ name.toList, endsName c = false) attrName := by
  refine (gives_char _).bind fun c first => (gives_takeWhile _).bind fun cs more => gives_pure ?_
  have all : ∀ d ∈ c :: cs, endsName d = false := by
    rw [List.forall_mem_cons]
    refine ⟨by simpa using first, fun d hd => ?_⟩
    have := more d hd
    simp only [Bool.and_eq_true] at this
    simpa using this.1
  intro d hd
  rw [nameOf, String.toList_ofList] at hd
  obtain ⟨d', mem, rfl⟩ := List.mem_map.1 hd
  exact endsName_toLower (all d' mem)

theorem gives_attributePair : Gives AreNames attributePair := by
  refine gives_attrName.bind fun key name => gives_bind fun _ => ?_
  refine gives_bind fun value => gives_bind fun _ => gives_pure ?_
  simpa [AreNames] using name

theorem gives_straySlash : Gives AreNames straySlash :=
  gives_bind fun _ => gives_bind fun _ => gives_bind fun _ => gives_pure areNames_nil

/-- Of attributes with one name the first is kept. -/
theorem mem_of_mem_distinctAttrs {a : Attr} {attrs : List Attr} (h : a ∈ distinctAttrs attrs) : a ∈ attrs := by
  induction attrs with
  | nil => exact h
  | cons b bs ih =>
    rw [distinctAttrs, List.mem_cons] at h
    rcases h with rfl | h
    · exact List.mem_cons_self
    · exact List.mem_cons_of_mem b (ih (List.mem_filter.1 h).1)

/-- The attributes of a tag have names, stray slashes among them or not. -/
theorem gives_attributes : Gives AreNames attributes := by
  refine gives_bind fun _ => (gives_attributePair.orElse gives_straySlash).many.bind fun parts names => gives_pure ?_
  intro a ha
  obtain ⟨part, mem, inside⟩ := List.mem_flatten.1 (mem_of_mem_distinctAttrs ha)
  exact names part mem a inside

/-! ## Events -/

/-- The attributes of a start tag have names. -/
def Event.Proper : Event → Prop
  | .start _ attrs _ => AreNames attrs
  | .close _ | .text _ | .comment _ => True

theorem gives_startTag : Gives (∀ e ∈ ·, Event.Proper e) startTag := by
  refine gives_bind fun _ => gives_bind fun tag => gives_attributes.bind fun attrs names => ?_
  have start (closes : Bool) : Event.Proper (.start tag attrs closes) := names
  refine Gives.orElse ?_ (Gives.orElse ?_ ?_)
  · exact gives_bind fun _ => gives_pure (by simpa using start true)
  · refine gives_bind fun _ => gives_bind fun content => gives_pure ?_
    rw [List.forall_mem_cons]
    refine ⟨start false, ?_⟩
    split
    · simp
    · simp [Event.Proper]
  · exact gives_bind fun _ => gives_pure (by simp)

theorem gives_endTag : Gives (∀ e ∈ ·, Event.Proper e) endTag := by
  refine gives_bind fun _ => Gives.orElse (gives_bind fun _ => gives_pure (by simp)) ?_
  refine gives_bind fun tag => gives_bind fun _ => Gives.orElse ?_ ?_
  · exact gives_bind fun _ => gives_pure (by simp [Event.Proper])
  · exact gives_bind fun _ => gives_pure (by simp)

theorem gives_comment : Gives (∀ e ∈ ·, Event.Proper e) comment := by
  refine gives_bind fun _ => Gives.orElse ?_ ?_
  · exact gives_bind fun _ => gives_pure (by simp [Event.Proper])
  · exact gives_bind fun t => gives_pure (by simp [Event.Proper])

theorem gives_strayTag : Gives (∀ e ∈ ·, Event.Proper e) strayTag := by
  refine gives_bind fun start => Gives.orElse ?_ ?_
  · exact gives_bind fun _ => gives_pure (by simp [Event.Proper])
  · exact gives_bind fun t => gives_pure (by simp [Event.Proper])

/-- Whatever event is read, its attributes have names. -/
theorem gives_event : Gives (∀ e ∈ ·, Event.Proper e) event := by
  refine gives_comment.orElse (Gives.orElse ?_ (gives_endTag.orElse (gives_strayTag.orElse (gives_startTag.orElse
    (Gives.orElse ?_ (Gives.orElse ?_ ?_))))))
  · exact gives_bind fun _ => gives_bind fun _ => gives_pure (by simp)
  · exact gives_bind fun t => gives_pure (by simp [Event.Proper])
  · exact gives_bind fun t => gives_pure (by simp [Event.Proper])
  · exact gives_bind fun c => gives_pure (by simp [Event.Proper])

/-- By induction over the text this holds of all its events. -/
theorem proper_of_mem_events (t : Text) : ∀ e ∈ events t, e.Proper := by
  intro e he
  obtain ⟨part, mem, inside⟩ := List.mem_flatten.1 he
  exact gives_event.collect t part mem e inside

theorem proper_of_mem_bodyEvents {es : List Event} (h : ∀ e ∈ es, e.Proper) :
    ∀ body ∈ bodyEvents? es, ∀ e ∈ body, e.Proper := by
  fun_induction bodyEvents? es with
  | case1 => simp
  | case2 attrs closes es => simpa using (List.forall_mem_cons.1 h).2
  | case3 tag attrs closes t es other head content ih => exact ih (List.forall_mem_cons.1 h).2
  | case4 tag attrs closes t es other head content ih =>
    exact ih (List.forall_mem_cons.1 (List.forall_mem_cons.1 h).2).2
  | case5 tag attrs closes t es other body => simpa using h
  | case6 t es blank ih => exact ih (List.forall_mem_cons.1 h).2
  | case7 t es solid => simpa using ⟨areNames_nil, List.forall_mem_cons.1 h⟩
  | case8 e es other other' other'' head ih => exact ih (List.forall_mem_cons.1 h).2
  | case9 e es other other' other'' body => simpa using h

/-- The body of a page has no events but those of the page. -/
theorem proper_of_mem_documentEvents {t : Text} {es : List Event} (h : documentEvents t = .ok es) :
    ∀ e ∈ es, e.Proper := by
  rw [documentEvents] at h
  cases found : bodyEvents? (events (Xml.normalizeLineEnds t)) with
  | none => simp [found] at h
  | some body =>
    rw [found] at h
    obtain rfl := Except.ok.inj h
    exact fun e he => proper_of_mem_bodyEvents (proper_of_mem_events _) body found e
      ((List.takeWhile_prefix _).subset he)

/-! ## Trees -/

/-- All attributes of the node and of what is in it have names. -/
def Proper (n : Node) : Prop := ∀ e ∈ elementsIn n, AreNames e.attrs

theorem mem_elementsInAll {e : Element} {ns : List Node} : e ∈ elementsInAll ns ↔ ∃ n ∈ ns, e ∈ elementsIn n := by
  induction ns with
  | nil => simp [elementsInAll]
  | cons n ns ih => simp [elementsInAll, ih]

theorem proper_element {name : String} {attrs : List Attr} {children : List Node} :
    Proper (.element name attrs children) ↔ AreNames attrs ∧ ∀ n ∈ children, Proper n := by
  simp only [Proper, elementsIn, List.forall_mem_cons, mem_elementsInAll]
  refine and_congr_right fun _ => ⟨fun h n hn e he => h e ⟨n, hn, he⟩, ?_⟩
  rintro h e ⟨n, hn, he⟩
  exact h n hn e he

theorem proper_text (t : Text) : Proper (.text t) := by simp [Proper, elementsIn]

theorem proper_comment (t : Text) : Proper (.comment t) := by simp [Proper, elementsIn]

/-- Text that is added to text makes one node, which has no attributes. -/
theorem proper_addNode {n : Node} {ns : List Node} (h : Proper n) (hs : ∀ m ∈ ns, Proper m) :
    ∀ m ∈ addNode n ns, Proper m := by
  unfold addNode
  split
  · rw [List.forall_mem_cons] at hs ⊢
    exact ⟨proper_text _, hs.2⟩
  · rw [List.forall_mem_cons]
    exact ⟨h, hs⟩

namespace Progress

/-- All attributes that have been read have names. -/
structure Proper (p : Progress) : Prop where
  stack : ∀ o ∈ p.stack, AreNames o.attrs ∧ ∀ n ∈ o.content, Html.Proper n
  done : ∀ n ∈ p.done, Html.Proper n

variable {p : Progress}

theorem Proper.add (h : p.Proper) {n : Node} (new : Html.Proper n) : (p.add n).Proper := by
  unfold Progress.add
  split
  · exact ⟨by simp_all, proper_addNode new h.done⟩
  · next o outer eq =>
    have stack := h.stack
    rw [eq, List.forall_mem_cons] at stack
    refine ⟨?_, h.done⟩
    rw [List.forall_mem_cons]
    exact ⟨⟨stack.1.1, proper_addNode new stack.1.2⟩, stack.2⟩

theorem Proper.closeOne (h : p.Proper) : p.closeOne.Proper := by
  unfold Progress.closeOne
  split
  · exact h
  · next o outer eq =>
    have stack := h.stack
    rw [eq, List.forall_mem_cons] at stack
    have outside : Proper { p with stack := outer } := ⟨stack.2, h.done⟩
    refine outside.add ?_
    rw [Open.close, proper_element]
    exact ⟨stack.1.1, fun n hn => stack.1.2 n (List.mem_reverse.1 hn)⟩

theorem Proper.closeMany (h : p.Proper) (n : Nat) : (p.closeMany n).Proper := by
  induction n with
  | zero => exact h
  | succ n ih => exact ih.closeOne

/-- One event keeps the trees proper. -/
theorem Proper.step (h : p.Proper) {e : Event} (new : e.Proper) : (p.step e).Proper := by
  cases e with
  | start tag attrs closes =>
    rw [Progress.step]
    split
    · exact h
    · have closed := h.closeMany (endedAtStart tag p.stack)
      dsimp only
      split
      · exact closed.add (proper_element.2 ⟨new, by simp⟩)
      · refine ⟨?_, closed.done⟩
        rw [List.forall_mem_cons]
        exact ⟨⟨new, by simp⟩, closed.stack⟩
  | close tag => exact h.closeMany (endedAtEnd tag p.stack)
  | text t =>
    rw [Progress.step]
    split
    · exact h
    · exact h.add (proper_text t)
  | comment t => exact h.add (proper_comment t)

/-- By induction over the events, so does a whole page. -/
theorem Proper.foldl (h : p.Proper) {es : List Event} (new : ∀ e ∈ es, e.Proper) :
    (es.foldl Progress.step p).Proper := by
  induction es generalizing p with
  | nil => exact h
  | cons e es ih =>
    rw [List.forall_mem_cons] at new
    exact ih (h.step new.1) new.2

theorem Proper.finish (h : p.Proper) : ∀ n ∈ p.finish, Html.Proper n := fun n hn =>
  (h.closeMany p.stack.length).done n (List.mem_reverse.1 hn)

end Progress

theorem mem_of_mem_dropBlankText {n : Node} {ns : List Node} (h : n ∈ dropBlankText ns) : n ∈ ns := by
  unfold dropBlankText at h
  split at h
  · split at h
    · exact List.mem_cons_of_mem _ h
    · exact h
  · exact h

/-- All attributes of a fragment have names. -/
theorem proper_of_mem_readFragment {t : Text} {ns : List Node} (h : readFragment t = .ok ns) :
    ∀ n ∈ ns, Proper n := by
  obtain ⟨es, proper, rfl⟩ : ∃ es : List Event, (∀ e ∈ es, e.Proper) ∧ dropBlankText (nodesOfEvents es) = ns := by
    rw [readFragment] at h
    split at h
    · cases read : documentEvents t with
      | error reason =>
        rw [read] at h
        cases h
      | ok es =>
        rw [read] at h
        exact ⟨es, proper_of_mem_documentEvents read, Except.ok.inj h⟩
    · exact ⟨_, proper_of_mem_events _, Except.ok.inj h⟩
  intro n hn
  have start : Progress.Proper ⟨[], []⟩ := ⟨by simp, by simp⟩
  exact (start.foldl proper).finish n (mem_of_mem_dropBlankText hn)

end OfficeFormula.Markup.Html
