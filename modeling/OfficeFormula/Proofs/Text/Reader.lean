import OfficeFormula.Text.Reader

/-!
# Readers

What a reader gives satisfies what all that its parts give does (`Gives`).

A reader that stops before the first character of what follows reads a text in the same way whatever
follows it (`Framed`). All the parts that such readers are put together from keep this.
-/

namespace OfficeFormula.Reader

variable {α β : Type} {p q : Reader α} {t : Text}

/-! ## Alternatives -/

theorem orElse_of_none (h : p t = none) : (p <|> q) t = q t := by
  show (p t <|> q t) = q t
  rw [h]
  rfl

theorem orElse_of_some {r : α × Text} (h : p t = some r) : (p <|> q) t = some r := by
  show (p t <|> q t) = some r
  rw [h]
  rfl

theorem bind_of_none {f : α → Reader β} (h : p t = none) : (p >>= f) t = none := by
  show (p t).bind (fun r => f r.1 r.2) = none
  rw [h]
  rfl

/-- A reader goes on where the one before it stopped. -/
theorem bind_of_some {f : α → Reader β} {r : α × Text} (h : p t = some r) : (p >>= f) t = f r.1 r.2 := by
  show (p t).bind (fun r => f r.1 r.2) = f r.1 r.2
  rw [h]
  rfl

/-- A literal is read at the beginning only. -/
theorem literal_of_not_prefix {s : String} (h : ¬s.toList <+: t) : literal s t = none := by
  cases after : Text.after? s.toList t with
  | none => rw [literal, after]; rfl
  | some rest => exact absurd ⟨rest, (Text.after?_eq_some_iff.1 after).symm⟩ h

/-! ## What readers give -/

/-- Whatever a reader gives satisfies `Q`. -/
def Gives (Q : α → Prop) (p : Reader α) : Prop := ∀ t, ∀ r ∈ p t, Q r.1

variable {Q : α → Prop} {R : β → Prop}

theorem gives_pure {a : α} (h : Q a) : Gives Q (pure a : Reader α) := by
  rintro t r ⟨⟩
  exact h

/-- What the second reader gives may depend on what the first one gave. -/
theorem Gives.bind {f : α → Reader β} (hp : Gives Q p) (hf : ∀ a, Q a → Gives R (f a)) : Gives R (p >>= f) := by
  intro t r hr
  cases h : p t with
  | none => simp [bind_of_none h] at hr
  | some s =>
    rw [bind_of_some h] at hr
    exact hf s.1 (hp t s h) s.2 r hr

theorem gives_bind {f : α → Reader β} (hf : ∀ a, Gives R (f a)) : Gives R (p >>= f) :=
  Gives.bind (Q := fun _ => True) (fun _ _ _ => trivial) fun a _ => hf a

theorem Gives.orElse (hp : Gives Q p) (hq : Gives Q q) : Gives Q (p <|> q) := by
  intro t r hr
  cases h : p t with
  | none =>
    rw [orElse_of_none h] at hr
    exact hq t r hr
  | some s =>
    rw [orElse_of_some h] at hr
    exact hp t r (h ▸ hr)

theorem Gives.collect (hp : Gives Q p) (t : Text) : ∀ a ∈ (Reader.collect p t).1, Q a := by
  fun_induction Reader.collect p t with
  | case1 t none => simp
  | case2 t a rest found shorter as rest' more ih =>
    rw [List.forall_mem_cons]
    exact ⟨hp t (a, rest) found, by rwa [more] at ih⟩
  | case3 t a rest found same => simp

/-- A repeated reader gives what it gave each time. -/
theorem Gives.many (hp : Gives Q p) : Gives (fun as => ∀ a ∈ as, Q a) (many p) := by
  rintro t r ⟨⟩
  exact hp.collect t

theorem gives_char (accepts : Char → Bool) : Gives (accepts · = true) (char accepts) := by
  intro t r hr
  cases t with
  | nil => simp [char] at hr
  | cons c cs =>
    by_cases h : accepts c = true
    · obtain rfl : (c, cs) = r := by simpa [char, h] using hr
      exact h
    · simp [char, h] at hr

/-- Only accepted characters are taken. -/
theorem gives_takeWhile (accepts : Char → Bool) : Gives (∀ c ∈ ·, accepts c = true) (takeWhile accepts) := by
  rintro t r ⟨⟩
  exact List.all_eq_true.1 List.all_takeWhile

/-! ## Frames -/

/-- What follows a text does not matter for what is read of it, and is left as it is. -/
def Framed (rest : Text) (p : Reader α) : Prop :=
  ∀ t, p (t ++ rest) = (p t).map fun r => (r.1, r.2 ++ rest)

variable {rest : Text}

theorem framed_pure (a : α) : Framed rest (pure a : Reader α) := fun _ => rfl

theorem framed_failure : Framed rest (failure : Reader α) := fun _ => rfl

/-- Framed readers one after the other are framed. -/
theorem Framed.bind {f : α → Reader β} (hp : Framed rest p) (hf : ∀ a, Framed rest (f a)) :
    Framed rest (p >>= f) := by
  intro t
  cases h : p t with
  | none =>
    have longer : p (t ++ rest) = none := by rw [hp, h]; rfl
    rw [bind_of_none longer, bind_of_none h]
    rfl
  | some r =>
    have longer : p (t ++ rest) = some (r.1, r.2 ++ rest) := by rw [hp, h]; rfl
    rw [bind_of_some longer, bind_of_some h]
    exact hf r.1 r.2

theorem Framed.orElse (hp : Framed rest p) (hq : Framed rest q) : Framed rest (p <|> q) := by
  intro t
  cases h : p t with
  | none =>
    have longer : p (t ++ rest) = none := by rw [hp, h]; rfl
    rw [orElse_of_none longer, orElse_of_none h]
    exact hq t
  | some r =>
    have longer : p (t ++ rest) = some (r.1, r.2 ++ rest) := by rw [hp, h]; rfl
    rw [orElse_of_some longer, orElse_of_some h]
    rfl

theorem Framed.filter {accepts : α → Bool} (hp : Framed rest p) : Framed rest (Reader.filter accepts p) := by
  refine hp.bind fun a => ?_
  split
  · exact framed_pure a
  · exact framed_failure

theorem takeWhile_append_of_stop {accepts : Char → Bool} (stop : ∀ c ∈ rest.head?, accepts c = false) (t : Text) :
    (t ++ rest).takeWhile accepts = t.takeWhile accepts ∧
      (t ++ rest).dropWhile accepts = t.dropWhile accepts ++ rest := by
  induction t with
  | nil =>
    cases rest with
    | nil => exact ⟨rfl, rfl⟩
    | cons c cs => simp [stop c rfl]
  | cons d ds ih =>
    by_cases h : accepts d = true
    · simpa [h] using ih
    · simp [h]

/-- A stretch is framed by what it cannot take in. -/
theorem framed_takeWhile {accepts : Char → Bool} (stop : ∀ c ∈ rest.head?, accepts c = false) :
    Framed rest (takeWhile accepts) := by
  intro t
  have ⟨taken, dropped⟩ := takeWhile_append_of_stop stop t
  rw [takeWhile, takeWhile, taken, dropped]
  rfl

theorem after?_append_of_stop {s : Text} (stop : ∀ c ∈ rest.head?, c ∉ s) (t : Text) :
    Text.after? s (t ++ rest) = (Text.after? s t).map (· ++ rest) := by
  induction s generalizing t with
  | nil => rfl
  | cons d ds ih =>
    have later : ∀ c ∈ rest.head?, c ∉ ds := fun c hc h => stop c hc (List.mem_cons_of_mem d h)
    cases t with
    | nil =>
      cases rest with
      | nil => rfl
      | cons c cs =>
        have other : d ≠ c := fun h => stop c rfl (h ▸ List.mem_cons_self)
        simp [Text.after?, other]
    | cons c cs =>
      by_cases h : d = c
      · simp [Text.after?, h, ih later]
      · simp [Text.after?, h]

/-- A literal is framed by what it has no character of. -/
theorem framed_literal {s : String} (stop : ∀ c ∈ rest.head?, c ∉ s.toList) : Framed rest (literal s) := by
  intro t
  rw [literal, literal, after?_append_of_stop stop]
  cases Text.after? s.toList t <;> rfl

end OfficeFormula.Reader
