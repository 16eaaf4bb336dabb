import OfficeFormula.Proofs.Latex.Markup

/-!
# Which expressions have markup

Printing an expression prints all that stands in it. So it fails exactly if a place somewhere in the
expression has been left open, or a matrix somewhere in it has no rows (`exists_error_iff`). Parsing
leaves no place open and gives every environment a row, so every formula can be printed.
-/

namespace OfficeFormula.Latex

open Omml (Node)

/-! ## The parts of an expression -/

/-- The expressions that stand in a nucleus. -/
def Nucleus.parts : Nucleus → List Expr
  | .root items | .group items => items
  | .frac num den => [num, den]
  | .sqrt base => [base]
  | .radical base degree => degree.toList ++ [base]
  | .environment _ rows => rows.flatten
  | .nary _ | .atom _ _ | .empty | .hole => []

/-- The expressions that stand in an expression, its scripts among them. -/
def Expr.parts (e : Expr) : List Expr := e.nucleus.parts ++ (e.sub.toList ++ e.sup.toList)

/-- `f` is `e`, or stands in it at some depth. -/
inductive Expr.Reaches : Expr → Expr → Prop where
  | refl (e : Expr) : e.Reaches e
  | part {e part f : Expr} (h : part ∈ e.parts) (inside : part.Reaches f) : e.Reaches f

theorem sizeOf_lt_of_mem_nucleus_parts {n : Nucleus} {part : Expr} (h : part ∈ n.parts) :
    sizeOf part < sizeOf n := by
  cases n with
  | root items | group items =>
    have inside : sizeOf part < sizeOf items := List.sizeOf_lt_of_mem h
    simp only [Nucleus.root.sizeOf_spec, Nucleus.group.sizeOf_spec]
    omega
  | frac num den =>
    simp only [Nucleus.parts, List.mem_cons, List.not_mem_nil, or_false] at h
    rcases h with rfl | rfl <;> simp only [Nucleus.frac.sizeOf_spec] <;> omega
  | sqrt base =>
    obtain rfl := List.mem_singleton.1 h
    simp only [Nucleus.sqrt.sizeOf_spec]
    omega
  | radical base degree =>
    simp only [Nucleus.parts, List.mem_append, Option.mem_toList, List.mem_singleton] at h
    rcases h with rfl | rfl <;> simp only [Nucleus.radical.sizeOf_spec, Option.some.sizeOf_spec] <;> omega
  | environment name rows =>
    obtain ⟨row, hrow, hpart⟩ := List.mem_flatten.1 h
    have outer := List.sizeOf_lt_of_mem hrow
    have inner := List.sizeOf_lt_of_mem hpart
    simp only [Nucleus.environment.sizeOf_spec]
    omega
  | nary | atom | empty | hole => cases h

/-- Parts are smaller, so what an expression reaches can be found by recursion. -/
theorem sizeOf_lt_of_mem_parts {e part : Expr} (h : part ∈ e.parts) : sizeOf part < sizeOf e := by
  obtain ⟨n, sub, sup⟩ := e
  simp only [Expr.parts, Expr.nucleus, Expr.sub, Expr.sup, List.mem_append, Option.mem_toList] at h
  rcases h with h | rfl | rfl
  · have inside := sizeOf_lt_of_mem_nucleus_parts h
    simp only [Expr.mk.sizeOf_spec]
    omega
  all_goals
    simp only [Expr.mk.sizeOf_spec, Option.some.sizeOf_spec]
    omega

/-! ## What each step of printing does -/

/-- Why a nucleus has no markup, whatever stands in it. -/
inductive Nucleus.Fails : Nucleus → MarkupError → Prop where
  | hole : Nucleus.Fails .hole .hole
  | noRows {name : String} (matrix : unstarred name ∈ matrixBrackets.map Prod.fst) :
      Nucleus.Fails (.environment name []) .noRows

/-- A computation that prints all the expressions, and fails if one of them does or for a reason of its
own. -/
structure Prints {α : Type} (es : List Expr) (own : MarkupError → Prop) (x : Except MarkupError α) : Prop where
  error : ∀ r, x = .error r → own r ∨ ∃ e ∈ es, e.markup = .error r
  ok : ∀ a, x = .ok a → (∀ r, ¬own r) ∧ ∀ e ∈ es, ∃ ns, e.markup = .ok ns

namespace Prints

variable {α β : Type} {es es' : List Expr} {own own' : MarkupError → Prop}

theorem pure (a : α) : Prints [] (fun _ => False) (.ok a) := ⟨by simp, by simp⟩

/-- A step that comes after another prints its parts behind those of the other, and fails where either fails. -/
theorem bind {x : Except MarkupError α} {f : α → Except MarkupError β} (hx : Prints es own x)
    (hf : ∀ a, x = .ok a → Prints es' own' (f a)) :
    Prints (es ++ es') (fun r => own r ∨ own' r) (x >>= f) := by
  cases x with
  | error r =>
    refine ⟨fun r' h => ?_, fun b h => by cases h⟩
    obtain rfl : r = r' := Except.error.inj h
    rcases hx.error r rfl with here | ⟨e, he, failed⟩
    · exact .inl (.inl here)
    · exact .inr ⟨e, List.mem_append_left es' he, failed⟩
  | ok a =>
    obtain ⟨fine, printed⟩ := hx.ok a rfl
    refine ⟨fun r h => ?_, fun b h => ?_⟩
    · rcases (hf a rfl).error r h with here | ⟨e, he, failed⟩
      · exact .inl (.inr here)
      · exact .inr ⟨e, List.mem_append_right es he, failed⟩
    · obtain ⟨fine', printed'⟩ := (hf a rfl).ok b h
      exact ⟨fun r h => h.elim (fine r) (fine' r), List.forall_mem_append.2 ⟨printed, printed'⟩⟩

/-- What is done with the nodes afterwards does not fail. -/
theorem map {x : Except MarkupError α} (hx : Prints es own x) (f : α → β) :
    Prints es own (x >>= fun a => .ok (f a)) := by
  simpa using hx.bind fun a _ => pure (f a)

/-- One computation after another that has no reason of its own to fail. -/
theorem andThen {x : Except MarkupError α} {f : α → Except MarkupError β} (hx : Prints es own x)
    (hf : ∀ a, Prints es' (fun _ => False) (f a)) : Prints (es ++ es') own (x >>= f) := by
  simpa using hx.bind fun a _ => hf a

end Prints

theorem prints_self (e : Expr) : Prints [e] (fun _ => False) e.markup :=
  ⟨fun r h => .inr ⟨e, List.mem_singleton_self e, h⟩, fun ns h => ⟨by simp, by simpa using ⟨ns, h⟩⟩⟩

theorem prints_markupOpt (script : Option Expr) : Prints script.toList (fun _ => False) (markupOpt script) := by
  cases script with
  | none =>
    rw [markupOpt]
    exact .pure none
  | some e =>
    rw [markupOpt]
    exact (prints_self e).map some

theorem prints_markupAll (es : List Expr) : Prints es (fun _ => False) (markupAll es) := by
  induction es with
  | nil =>
    rw [markupAll]
    exact .pure []
  | cons e es ih =>
    rw [markupAll]
    exact (prints_self e).andThen fun ns => ih.map (ns ++ ·)

theorem prints_markupCells (es : List Expr) : Prints es (fun _ => False) (markupCells es) := by
  induction es with
  | nil =>
    rw [markupCells]
    exact .pure []
  | cons e es ih =>
    rw [markupCells]
    exact (prints_self e).andThen fun ns => ih.map (ns :: ·)

/-- Rows are printed cell by cell, and fail by no fault of their own. -/
theorem prints_markupRows (rows : List (List Expr)) :
    Prints rows.flatten (fun _ => False) (markupRows rows) := by
  induction rows with
  | nil =>
    rw [markupRows]
    exact .pure []
  | cons row rows ih =>
    rw [markupRows]
    exact (prints_markupCells row).andThen fun cells => ih.map (cells :: ·)

theorem length_of_markupRows {rows : List (List Expr)} {printed : List (List (List Node))}
    (h : markupRows rows = .ok printed) : printed.length = rows.length := by
  induction rows generalizing printed with
  | nil =>
    obtain rfl : [] = printed := Except.ok.inj h
    rfl
  | cons row rows ih =>
    rw [markupRows] at h
    obtain ⟨cells, _, h⟩ := exists_of_bind_eq_ok h
    obtain ⟨rest, hrest, h⟩ := exists_of_bind_eq_ok h
    obtain rfl : cells :: rest = printed := Except.ok.inj h
    rw [List.length_cons, List.length_cons, ih hrest]

/-- Of the environments whose cells have been printed, only a matrix without rows has no markup. -/
theorem prints_environmentMarkup {name : String} {rows : List (List Expr)} {printed : List (List (List Node))}
    (length : printed.length = rows.length) :
    Prints [] (Nucleus.environment name rows).Fails (environmentMarkup name printed) := by
  unfold environmentMarkup
  split
  · next opening closing found =>
    split
    · next none =>
      obtain rfl : printed = [] := by simpa using none
      obtain rfl : rows = [] := List.length_eq_zero_iff.1 length.symm
      obtain ⟨before, after, table, _⟩ := List.lookup_eq_some_iff.1 found
      refine ⟨fun r h => .inl ?_, by simp⟩
      obtain rfl := Except.error.inj h
      exact .noRows (by simp [table])
    · next width widest =>
      refine ⟨by simp, fun nodes _ => ⟨?_, by simp⟩⟩
      rintro r ⟨_⟩
      obtain rfl := List.length_eq_zero_iff.1 length
      cases widest
  · next unknown =>
    have fine : ∀ r, ¬(Nucleus.environment name rows).Fails r := by
      intro r failed
      cases failed with
      | noRows matrix =>
        obtain ⟨entry, hentry, same⟩ := List.mem_map.1 matrix
        have other := List.lookup_eq_none_iff.1 unknown entry hentry
        exact absurd same.symm (by simpa using other)
    split <;> exact ⟨by simp, fun nodes _ => ⟨fine, by simp⟩⟩

/-- A nucleus prints its parts first, and then fails only in the ways of its own. -/
theorem prints_nucleus (n : Nucleus) : Prints n.parts n.Fails n.markup := by
  have fine (other : ∀ r, ¬n.Fails r) : n.Fails = fun _ => False := funext fun r => eq_false (other r)
  cases n with
  | root items | group items =>
    rw [Nucleus.markup, fine (by rintro r ⟨⟩)]
    exact prints_markupAll items
  | frac num den =>
    rw [Nucleus.markup, fine (by rintro r ⟨⟩)]
    exact (prints_self num).andThen fun nums => (prints_self den).map fun dens => [Omml.fraction nums dens]
  | sqrt base =>
    rw [Nucleus.markup, fine (by rintro r ⟨⟩)]
    exact (prints_self base).map fun bases => [Omml.radical bases [] true]
  | radical base degree =>
    rw [Nucleus.markup, fine (by rintro r ⟨⟩)]
    exact (prints_markupOpt degree).andThen fun degrees =>
      (prints_self base).map fun bases => [Omml.radical bases (degrees.getD []) false]
  | nary op =>
    rw [Nucleus.markup, fine (by rintro r ⟨⟩)]
    exact .pure _
  | atom kind value =>
    rw [Nucleus.markup, fine (by rintro r ⟨⟩)]
    exact .pure _
  | environment name rows =>
    rw [Nucleus.markup]
    simpa [Nucleus.parts] using (prints_markupRows rows).bind fun printed h =>
      prints_environmentMarkup (length_of_markupRows h)
  | empty =>
    rw [Nucleus.markup, fine (by rintro r ⟨⟩)]
    exact .pure []
  | hole =>
    rw [Nucleus.markup]
    refine ⟨fun r h => .inl ?_, fun ns h => by cases h⟩
    obtain rfl := Except.error.inj h
    exact .hole

/-- Printing an expression prints its parts. -/
theorem prints_markup (e : Expr) : Prints e.parts e.nucleus.Fails e.markup := by
  obtain ⟨n, sub, sup⟩ := e
  have scripts {base : Option (List Node) → Option (List Node) → List Node} :
      Prints (sub.toList ++ sup.toList) (fun _ => False) (do
        let lower ← markupOpt sub
        let upper ← markupOpt sup
        return base lower upper) :=
    (prints_markupOpt sub).andThen fun lower => (prints_markupOpt sup).map (base lower)
  by_cases big : ∃ op, n = .nary op
  · obtain ⟨op, rfl⟩ := big
    have fine : (Nucleus.nary op).Fails = fun _ => False := funext fun r => eq_false (by rintro ⟨⟩)
    rw [Expr.markup, Expr.nucleus, fine]
    exact scripts
  · rw [Expr.markup]
    case x_1 => exact fun op he => big ⟨op, he⟩
    exact (prints_nucleus n).andThen fun base => scripts

/-! ## Failures -/

/-- The failure that is reported is that of a nucleus somewhere in the expression. -/
theorem exists_reached_of_error (e : Expr) {r : MarkupError} (h : e.markup = .error r) :
    ∃ f, e.Reaches f ∧ f.nucleus.Fails r := by
  rcases (prints_markup e).error r h with here | ⟨part, hpart, failed⟩
  · exact ⟨e, .refl e, here⟩
  · have smaller := sizeOf_lt_of_mem_parts hpart
    obtain ⟨f, inside, fails⟩ := exists_reached_of_error part failed
    exact ⟨f, .part hpart inside, fails⟩
termination_by sizeOf e

/-- All that stands in an expression with markup has markup. -/
theorem Expr.Reaches.exists_ok {e f : Expr} (h : e.Reaches f) {ns : List Node} (printed : e.markup = .ok ns) :
    ∃ ms, f.markup = .ok ms := by
  induction h generalizing ns with
  | refl e => exact ⟨ns, printed⟩
  | @part e part f hpart _ ih =>
    obtain ⟨ms, hms⟩ := ((prints_markup e).ok ns printed).2 part hpart
    exact ih hms

/-- Printing fails exactly if something that is reached fails. -/
theorem exists_error_iff (e : Expr) :
    (∃ r, e.markup = .error r) ↔ ∃ f r, e.Reaches f ∧ f.nucleus.Fails r := by
  constructor
  · rintro ⟨r, h⟩
    obtain ⟨f, reached, fails⟩ := exists_reached_of_error e h
    exact ⟨f, r, reached, fails⟩
  · rintro ⟨f, r, reached, fails⟩
    cases h : e.markup with
    | error r => exact ⟨r, rfl⟩
    | ok ns =>
      obtain ⟨ms, hms⟩ := reached.exists_ok h
      exact absurd fails (((prints_markup f).ok ms hms).1 r)

/-! ## What is parsed -/

/-- A nucleus that stands for something: an environment has rows, each with a cell, and an atom has
characters. -/
def Nucleus.IsFilled : Nucleus → Prop
  | .environment _ rows => rows ≠ [] ∧ ∀ row ∈ rows, row ≠ []
  | .atom _ value => value ≠ []
  | .hole => False
  | .root _ | .group _ | .frac _ _ | .sqrt _ | .radical _ _ | .nary _ | .empty => True

/-- What fails is a hole or a matrix without rows, and neither is filled. -/
theorem Nucleus.IsFilled.not_fails {n : Nucleus} (filled : n.IsFilled) (r : MarkupError) : ¬n.Fails r := by
  rintro (_ | _)
  · exact filled
  · exact filled.1 rfl

namespace Expr.Built

variable {A : Char → Prop}

theorem isFilled {e : Expr} (built : e.Built A) : e.nucleus.IsFilled := by
  obtain ⟨nucleus, _, _⟩ := built
  cases nucleus with
  | environment name ne cells _ => exact ⟨ne, cells⟩
  | atom kind ne _ => exact ne
  | group | frac | sqrt | radical | nary | empty => trivial

theorem part {e : Expr} (built : e.Built A) : ∀ part ∈ e.parts, part.Built A := by
  obtain ⟨nucleus, hsub, hsup⟩ := built
  simp only [Expr.parts, Expr.nucleus, Expr.sub, Expr.sup, List.forall_mem_append, Option.mem_toList]
  refine ⟨?_, hsub, hsup⟩
  cases nucleus with
  | group h => exact h
  | frac hnum hden => simpa [Nucleus.parts] using ⟨hnum, hden⟩
  | sqrt h => simpa [Nucleus.parts] using h
  | radical hbase hdegree => simpa [Nucleus.parts, or_imp, forall_and] using ⟨hdegree, hbase⟩
  | environment name _ _ h =>
    intro part hpart
    obtain ⟨row, hrow, hpart⟩ := List.mem_flatten.1 hpart
    exact h row hrow part hpart
  | nary | atom | empty => simp [Nucleus.parts]

/-- What the parser built is built all the way down. -/
theorem reached {e f : Expr} (built : e.Built A) (h : e.Reaches f) : f.Built A := by
  induction h with
  | refl e => exact built
  | part hpart _ ih => exact ih (built.part _ hpart)

end Expr.Built

theorem isFilled_of_reaches_parse {formula : Text} {f : Expr} (h : (parse formula).Reaches f) :
    f.nucleus.IsFilled := by
  have supplied : Supplied (fun _ => True) (tokenize formula) :=
    ⟨by simp, fun _ h => (text_of_mem_tokenize h).1, by simp⟩
  cases h with
  | refl => trivial
  | @part _ item _ hpart inside =>
    have listed : item ∈ formulaItems (tokenize formula) := by
      simpa [parse, parseTokens, Nucleus.plain, Expr.parts, Expr.nucleus, Expr.sub, Expr.sup,
        Nucleus.parts] using hpart
    exact ((built_formulaItems _ supplied item listed).reached inside).isFilled

/-- An expression has no markup exactly if a hole or a matrix without rows stands somewhere in it. A
formula is parsed into neither, its environments and atoms are not empty, and it has markup. -/
theorem markup_fails_exactly :
    (∀ e : Expr, (∃ r, e.markup = .error r) ↔ ∃ f r, e.Reaches f ∧ f.nucleus.Fails r) ∧
      ∀ formula : Text,
        (∀ f, (parse formula).Reaches f → f.nucleus.IsFilled ∧ ∀ r, ¬f.nucleus.Fails r) ∧
          ∃ markup, formulaMarkup formula = .ok markup := by
  refine ⟨exists_error_iff, fun formula => ?_⟩
  have filled (f : Expr) (reached : (parse formula).Reaches f) :
      f.nucleus.IsFilled ∧ ∀ r, ¬f.nucleus.Fails r :=
    ⟨isFilled_of_reaches_parse reached, (isFilled_of_reaches_parse reached).not_fails⟩
  refine ⟨filled, ?_⟩
  rw [formulaMarkup]
  cases h : (parse formula).markup with
  | error r =>
    obtain ⟨f, reached, fails⟩ := exists_reached_of_error _ h
    exact absurd fails ((filled f reached).2 r)
  | ok nodes => exact ⟨(Omml.formula nodes).render, rfl⟩

end OfficeFormula.Latex
