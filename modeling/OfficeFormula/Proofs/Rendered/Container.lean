import OfficeFormula.Rendered.Clipboard

/-!
# The containers that are set aside

Containers are set aside one kind after the other, and those of one kind in document order. The formulas
of a page are its outermost containers (`outermost`). They are what is set aside, each once, provided that
no formula has a container of an earlier kind inside it (`isOrdered`): such a one would be set aside
first. `Marked` says how the nodes stand to those of the page after some of the kinds.
-/

namespace OfficeFormula.Rendered

open Markup (Attr Node)
open Markup.Html (Element elementsIn elementsInAll)

/-! ## Containers in a page -/

/-- The element is a container of some kind. -/
def isContainer (e : Element) : Bool := Container.all.any (·.holds e)

/-- The place of the first kind of container that the element is. -/
def rank (e : Element) : Nat := Container.all.findIdx (·.holds e)

mutual

/-- The containers that stand in no other container, in document order. -/
def outermost : Node → List Element
  | .element name attrs children =>
    if isContainer ⟨name, attrs, children⟩ then [⟨name, attrs, children⟩] else outermostAll children
  | .text _ | .comment _ => []

def outermostAll : List Node → List Element
  | [] => []
  | n :: ns => outermost n ++ outermostAll ns

end

/-- No element inside is a container of an earlier kind. -/
def isOrdered (e : Element) : Bool := (elementsInAll e.children).all fun d => rank e ≤ rank d

section Containers

variable {c : Container} {name : String} {attrs : List Attr} {cs : List Node}

/-- Whether an element is a container does not depend on its content. -/
theorem holds_children (cs' : List Node) : c.holds ⟨name, attrs, cs⟩ = c.holds ⟨name, attrs, cs'⟩ := by
  cases c <;> rfl

theorem isContainer_of_holds (known : c ∈ Container.all) {e : Element} (h : c.holds e = true) :
    isContainer e = true :=
  List.any_eq_true.2 ⟨c, known, h⟩

/-- A wrapper is no container. -/
theorem holds_wrapper (c : Container) {tag : String} (fixed : tag = "div" ∨ tag = "span") (ns : List Node) :
    c.holds ⟨tag, [], ns⟩ = false := by
  cases c with
  | hasClass word => rfl
  | displayedMathJax => rcases fixed with rfl | rfl <;> rfl
  | mathJax => rcases fixed with rfl | rfl <;> rfl

/-- In an ordered container, what is inside has no kind before its own. -/
theorem holds_inside_of_isOrdered {done todo : List Container} (split : Container.all = done ++ c :: todo)
    {e d : Element} (ordered : isOrdered e = true) (inside : d ∈ elementsInAll e.children)
    (late : done.any (·.holds e) = false) (other : c.holds e = false) : c.holds d = false := by
  have order : rank e ≤ rank d := by simpa using List.all_eq_true.1 ordered d inside
  cases h : c.holds d with
  | false => rfl
  | true =>
    have here : rank d ≤ done.length := by
      rw [rank, split, List.findIdx_append]
      split
      · omega
      · rw [List.findIdx_cons, h]
        simp
    have later : done.length < rank e := by
      rw [List.any_eq_false] at late
      rw [rank, split, List.findIdx_append, List.findIdx_eq_length.2 (by simpa using late), if_neg (by simp),
        List.findIdx_cons, other]
      simp
    omega

end Containers

/-! ## Setting one kind aside -/

section Steps

variable {c : Container} {found : List Element} {name : String} {attrs : List Attr} {cs : List Node}

theorem setAside_of_holds (h : c.holds ⟨name, attrs, cs⟩ = true) :
    setAside c found (.element name attrs cs) =
      (found ++ [⟨name, attrs, cs⟩], wrapper ⟨name, attrs, cs⟩ (Span.placeholder found.length)) := by
  rw [setAside, if_pos h]

theorem setAside_of_not_holds (h : c.holds ⟨name, attrs, cs⟩ = false) :
    setAside c found (.element name attrs cs) =
      ((setAsideAll c found cs).1, .element name attrs (setAsideAll c found cs).2) := by
  rw [setAside, if_neg (by simp [h])]

theorem setAsideAll_cons (n : Node) (ns : List Node) :
    setAsideAll c found (n :: ns) =
      ((setAsideAll c (setAside c found n).1 ns).1,
        (setAside c found n).2 :: (setAsideAll c (setAside c found n).1 ns).2) := by
  rw [setAsideAll]

end Steps

mutual

theorem setAside_eq_self {c : Container} {found : List Element} :
    (n : Node) → (∀ d ∈ elementsIn n, c.holds d = false) → setAside c found n = (found, n)
  | .element name attrs children, h => by
    rw [elementsIn, List.forall_mem_cons] at h
    rw [setAside_of_not_holds h.1, setAsideAll_eq_self children h.2]
  | .text t, _ => by rw [setAside]
  | .comment t, _ => by rw [setAside]

theorem setAsideAll_eq_self {c : Container} {found : List Element} :
    (ns : List Node) → (∀ d ∈ elementsInAll ns, c.holds d = false) → setAsideAll c found ns = (found, ns)
  | [], _ => by rw [setAsideAll]
  | n :: ns, h => by
    rw [elementsInAll, List.forall_mem_append] at h
    rw [setAsideAll_cons, setAside_eq_self n h.1, setAsideAll_eq_self ns h.2]

end

mutual

/-- The nodes of a page in which the outermost containers of the kinds `done` have been replaced. Their
places in `found` number the placeholders. -/
inductive Marked (done : List Container) (found : List Element) : Node → Node → Prop where
  | replaced {name : String} {attrs : List Attr} {cs : List Node} {i : Nat}
      (container : isContainer ⟨name, attrs, cs⟩ = true)
      (early : done.any (·.holds ⟨name, attrs, cs⟩) = true) (number : found[i]? = some ⟨name, attrs, cs⟩) :
      Marked done found (.element name attrs cs) (wrapper ⟨name, attrs, cs⟩ (Span.placeholder i))
  | kept {name : String} {attrs : List Attr} {cs : List Node} (container : isContainer ⟨name, attrs, cs⟩ = true)
      (late : done.any (·.holds ⟨name, attrs, cs⟩) = false) :
      Marked done found (.element name attrs cs) (.element name attrs cs)
  | element {name : String} {attrs : List Attr} {cs cs' : List Node}
      (other : isContainer ⟨name, attrs, cs⟩ = false) (inside : MarkedAll done found cs cs') :
      Marked done found (.element name attrs cs) (.element name attrs cs')
  | text (t : Text) : Marked done found (.text t) (.text t)
  | comment (t : Text) : Marked done found (.comment t) (.comment t)

inductive MarkedAll (done : List Container) (found : List Element) : List Node → List Node → Prop where
  | nil : MarkedAll done found [] []
  | cons {n n' : Node} {ns ns' : List Node} (head : Marked done found n n') (tail : MarkedAll done found ns ns') :
      MarkedAll done found (n :: ns) (n' :: ns')

end

section Marked

variable {done : List Container} {found : List Element}

mutual

/-- At the start no kind has been set aside. -/
theorem Marked.start : (n : Node) → Marked [] found n n
  | .element name attrs children => by
    cases h : isContainer ⟨name, attrs, children⟩ with
    | true => exact .kept h rfl
    | false => exact .element h (MarkedAll.start children)
  | .text t => .text t
  | .comment t => .comment t

theorem MarkedAll.start : (ns : List Node) → MarkedAll [] found ns ns
  | [] => .nil
  | n :: ns => .cons (Marked.start n) (MarkedAll.start ns)

end

mutual

/-- The numbers of placeholders stay valid when more containers are found. -/
theorem Marked.more {n n' : Node} (more : List Element) :
    Marked done found n n' → Marked done (found ++ more) n n'
  | .replaced container early number => by
    refine .replaced container early ?_
    rw [List.getElem?_append_left (List.getElem?_eq_some_iff.1 number).1]
    exact number
  | .kept container late => .kept container late
  | .element other inside => .element other (inside.more more)
  | .text t => .text t
  | .comment t => .comment t

theorem MarkedAll.more {ns ns' : List Node} (more : List Element) :
    MarkedAll done found ns ns' → MarkedAll done (found ++ more) ns ns'
  | .nil => .nil
  | .cons head tail => .cons (head.more more) (tail.more more)

end

/-- A container of the kind `c` that no earlier kind has taken. -/
def isNew (done : List Container) (c : Container) (e : Element) : Bool :=
  !done.any (·.holds e) && c.holds e

mutual

/-- Setting the next kind aside takes its outermost containers, in document order, behind those that have
been taken from other parts of the page. -/
theorem Marked.setAside {c : Container} (known : c ∈ Container.all) {n n' : Node} :
    Marked done found n n' →
    (∀ e ∈ outermost n, done.any (·.holds e) = false → c.holds e = false →
      ∀ d ∈ elementsInAll e.children, c.holds d = false) →
    ∀ before, ∃ n'',
      Rendered.setAside c (found ++ before) n' = (found ++ before ++ (outermost n).filter (isNew done c), n'') ∧
        Marked (done ++ [c]) (found ++ before ++ (outermost n).filter (isNew done c)) n n''
  | @Marked.replaced _ _ name attrs cs i container early number, _ => by
    intro before
    have taken : (outermost (.element name attrs cs)).filter (isNew done c) = [] := by
      simp [outermost, container, isNew, early]
    have wrapped : Rendered.setAside c (found ++ before) (wrapper ⟨name, attrs, cs⟩ (Span.placeholder i)) =
        (found ++ before, wrapper ⟨name, attrs, cs⟩ (Span.placeholder i)) := by
      apply setAside_eq_self
      simp only [wrapper, elementsIn, elementsInAll, List.append_nil, List.forall_mem_singleton]
      exact holds_wrapper c (by split <;> simp) _
    rw [taken, List.append_nil, wrapped]
    exact ⟨_, rfl, (Marked.replaced container (by simp [early]) number).more before⟩
  | @Marked.kept _ _ name attrs cs container late, later => by
    intro before
    have self : outermost (.element name attrs cs) = [⟨name, attrs, cs⟩] := by
      rw [outermost, if_pos container]
    rw [self, List.forall_mem_singleton] at later
    rw [self]
    cases h : c.holds ⟨name, attrs, cs⟩ with
    | true =>
      have taken : [⟨name, attrs, cs⟩].filter (isNew done c) = [⟨name, attrs, cs⟩] := by
        simp [isNew, late, h]
      rw [taken, setAside_of_holds h]
      exact ⟨_, rfl, .replaced container (by simp [h]) List.getElem?_concat_length⟩
    | false =>
      have taken : [⟨name, attrs, cs⟩].filter (isNew done c) = [] := by
        simp [isNew, h]
      rw [taken, List.append_nil, setAside_of_not_holds h, setAsideAll_eq_self cs (later late h)]
      exact ⟨_, rfl, .kept container (by simp [late, h])⟩
  | @Marked.element _ _ name attrs cs cs' other inside, later => by
    intro before
    have none : c.holds ⟨name, attrs, cs'⟩ = false := by
      rw [holds_children cs]
      cases h : c.holds ⟨name, attrs, cs⟩ with
      | false => rfl
      | true => simp [isContainer_of_holds known h] at other
    have inner : outermost (.element name attrs cs) = outermostAll cs := by
      rw [outermost, if_neg (by simp [other])]
    rw [inner] at later ⊢
    obtain ⟨cs'', taken, marked⟩ := inside.setAside known later before
    rw [setAside_of_not_holds none, taken]
    exact ⟨_, rfl, .element other marked⟩
  | .text t, _ => fun _ => ⟨_, by simp [Rendered.setAside, outermost], .text t⟩
  | .comment t, _ => fun _ => ⟨_, by simp [Rendered.setAside, outermost], .comment t⟩

theorem MarkedAll.setAside {c : Container} (known : c ∈ Container.all) {ns ns' : List Node} :
    MarkedAll done found ns ns' →
    (∀ e ∈ outermostAll ns, done.any (·.holds e) = false → c.holds e = false →
      ∀ d ∈ elementsInAll e.children, c.holds d = false) →
    ∀ before, ∃ ns'',
      setAsideAll c (found ++ before) ns' =
          (found ++ before ++ (outermostAll ns).filter (isNew done c), ns'') ∧
        MarkedAll (done ++ [c]) (found ++ before ++ (outermostAll ns).filter (isNew done c)) ns ns''
  | .nil, _ => fun _ => ⟨_, by simp [setAsideAll, outermostAll], .nil⟩
  | .cons head tail, later => by
    intro before
    rw [outermostAll, List.forall_mem_append] at later
    obtain ⟨n'', first, headMarked⟩ := head.setAside known later.1 before
    rw [List.append_assoc] at first
    obtain ⟨ns'', rest, tailMarked⟩ := tail.setAside known later.2 _
    rw [setAsideAll_cons, first, rest, outermostAll, List.filter_append]
    simp only [List.append_assoc] at headMarked tailMarked ⊢
    refine ⟨_, rfl, .cons ?_ tailMarked⟩
    simpa only [List.append_assoc] using headMarked.more _

end

end Marked

/-! ## Setting all kinds aside -/

/-- After the kinds `done` the formulas among them have been found, each once, and replaced. -/
structure SetAside (page : List Node) (done : List Container) (s : List Element × List Node) : Prop where
  found : s.1.Perm ((outermostAll page).filter fun e => done.any (·.holds e))
  marked : MarkedAll done s.1 page s.2

theorem perm_filter_or {α : Type} (p q : α → Bool) (xs : List α) :
    (xs.filter p ++ xs.filter fun a => !p a && q a).Perm (xs.filter fun a => p a || q a) := by
  have parts := List.filter_append_perm p (xs.filter fun a => p a || q a)
  rw [List.filter_filter, List.filter_filter] at parts
  have first : (fun a => p a && (p a || q a)) = p := by
    funext a
    cases p a <;> rfl
  have second : (fun a => !p a && (p a || q a)) = fun a => !p a && q a := by
    funext a
    cases p a <;> rfl
  rwa [first, second] at parts

theorem SetAside.step {page : List Node} {done todo : List Container} {c : Container}
    {s : List Element × List Node} (ordered : ∀ e ∈ outermostAll page, isOrdered e = true)
    (split : Container.all = done ++ c :: todo) (h : SetAside page done s) :
    SetAside page (done ++ [c]) (setAsideAll c s.1 s.2) := by
  have known : c ∈ Container.all := by simp [split]
  obtain ⟨ns, taken, marked⟩ := h.marked.setAside known (fun e he late other d hd =>
    holds_inside_of_isOrdered split (ordered e he) hd late other) []
  simp only [List.append_nil] at taken marked
  rw [taken]
  refine ⟨?_, marked⟩
  have kinds : (fun e => (done ++ [c]).any (·.holds e)) = fun e => done.any (·.holds e) || c.holds e := by
    funext e
    simp
  rw [kinds]
  exact (h.found.append_right _).trans (perm_filter_or _ _ _)

theorem SetAside.run {page : List Node} (ordered : ∀ e ∈ outermostAll page, isOrdered e = true)
    {done todo : List Container} (split : Container.all = done ++ todo) {s : List Element × List Node}
    (h : SetAside page done s) :
    SetAside page Container.all (todo.foldl (fun s c => setAsideAll c s.1 s.2) s) := by
  induction todo generalizing done s with
  | nil =>
    rw [List.append_nil] at split
    exact split ▸ h
  | cons c todo ih => exact ih (by simp [split]) (h.step ordered split)

/-- The formulas of an ordered page are set aside, each once. -/
theorem setAside_setAsideContainers {page : List Node}
    (ordered : ∀ e ∈ outermostAll page, isOrdered e = true) :
    SetAside page Container.all (setAsideContainers page) := by
  have start : SetAside page [] ([], page) := ⟨by simp, MarkedAll.start page⟩
  exact start.run ordered (List.nil_append _).symm

mutual

theorem isContainer_of_mem_outermost : (n : Node) → ∀ e ∈ outermost n, isContainer e = true
  | .element name attrs children => by
    rw [outermost]
    split
    · next h => simpa using h
    · exact isContainer_of_mem_outermostAll children
  | .text _ => by simp [outermost]
  | .comment _ => by simp [outermost]

theorem isContainer_of_mem_outermostAll : (ns : List Node) → ∀ e ∈ outermostAll ns, isContainer e = true
  | [] => by simp [outermostAll]
  | n :: ns => by
    rw [outermostAll, List.forall_mem_append]
    exact ⟨isContainer_of_mem_outermost n, isContainer_of_mem_outermostAll ns⟩

end

end OfficeFormula.Rendered
