import OfficeFormula.Proofs.Span.Cut

/-!
# Code put back

Code is put back by literal replacement, one placeholder after the other. Where the characters avoid a
placeholder, a literal replacement touches the one piece it is meant for. Code begins and ends with
marks, so that it makes up no placeholder with its neighbours, and the text still avoids the ones that
come later (`restoreCodeFrom_spell`). In particular a clean text stays clean.
-/

namespace OfficeFormula.Span

/-! ## Replacing one placeholder -/

theorem codePlaceholder_ne_nil (i : Nat) : codePlaceholder i ≠ [] := by
  simp [codePlaceholder, placeholderStart_eq]

/-- A piece after the code with number `i` has been put back. -/
def Piece.putBack (i : Nat) (code : Text) (p : Piece) : List Piece :=
  if p = .code i then code.map .char else [p]

theorem replaceAll_codePlaceholder_spell {ps : List Piece} {i : Nat} (avoids : Avoids (codePlaceholder i) ps)
    (code : Text) :
    Text.replaceAll (codePlaceholder i) code (spell ps) = spell (ps.flatMap (Piece.putBack i code)) := by
  have ne := codePlaceholder_ne_nil i
  induction ps with
  | nil => exact Text.replaceAll_nil ne code
  | cons p ps ih =>
    have ih := ih (avoids.mono (List.suffix_cons p ps).isInfix)
    by_cases hp : p = .code i
    · rw [hp, spell_cons, Piece.text, Text.replaceAll_append ne, ih]
      simp [Piece.putBack]
    · have other : ∀ u, u <:+ p.text → u ≠ [] → ¬codePlaceholder i <+: u ++ spell ps := by
        intro u hu hne
        by_cases whole : u = p.text
        · rw [whole]
          exact fun h => hp (eq_of_prefix_spell (q := .code i) rfl avoids h)
        · cases word : p.isWord with
          | true =>
            rw [codePlaceholder, placeholderStart_eq]
            exact not_prefix_of_suffix_word word hu whole hne
          | false =>
            cases p <;> simp_all [Piece.isWord, Piece.text, List.suffix_cons_iff]
      rw [spell_cons, Text.replaceAll_append_of_not ne code other, ih]
      simp [Piece.putBack, hp]

/-! ## Putting all code back -/

/-- Code as it is kept: between marks, and without the beginning of a placeholder. -/
structure IsCode (t : Text) : Prop where
  bounded : Bounded t
  fresh : ¬placeholderStart <:+: t

/-- Text between marks that does not have the word in it may be put between pieces that avoid it. -/
theorem avoids_append_bounded {w : Text} (plain : ∀ c ∈ w, isMark c = false) {us vs : List Piece} {t : Text}
    (bounded : Bounded t) (fresh : ¬w <:+: t) (left : Avoids w us) (right : Avoids w vs) :
    Avoids w (us ++ (t.map .char ++ vs)) := by
  obtain ⟨c, r, rfl, mark⟩ := bounded.first
  rw [List.map_cons, List.cons_append, avoids_append_cons (char_not_mem_map plain mark)]
  refine ⟨left, ?_⟩
  obtain ⟨r', d, he, mark'⟩ := bounded.last
  cases r' with
  | nil =>
    simp only [List.nil_append, List.cons.injEq] at he
    simpa [he.2] using right
  | cons e r' =>
    simp only [List.cons_append, List.cons.injEq] at he
    rw [he.2, List.map_append, List.map_cons, List.map_nil, List.append_assoc, List.singleton_append,
      avoids_append_cons (char_not_mem_map plain mark')]
    refine ⟨avoids_map_char.2 fun h => fresh ?_, right⟩
    exact h.trans ⟨[c], [d], by simp [he.2]⟩

/-- Putting such texts in place of placeholders makes up no word. -/
theorem avoids_flatMap {w : Text} (plain : ∀ c ∈ w, isMark c = false) {f : Piece → List Piece}
    (puts : ∀ p, f p = [p] ∨ p.isWord = true ∧ ∃ t, f p = t.map .char ∧ Bounded t ∧ ¬w <:+: t)
    {ps : List Piece} : ∀ us, Avoids w (us ++ ps) → Avoids w (us ++ ps.flatMap f) := by
  induction ps with
  | nil => intro us avoids; simpa using avoids
  | cons p ps ih =>
    intro us avoids
    rw [List.flatMap_cons]
    rcases puts p with same | ⟨word, t, text, bounded, fresh⟩
    · rw [same]
      simpa using ih (us ++ [p]) (by simpa using avoids)
    · obtain ⟨left, right⟩ := (avoids_append_cons (word_not_mem_map word w)).1 avoids
      rw [text]
      exact avoids_append_bounded plain bounded fresh left (ih [] right)

/-- A piece after the code with numbers from `i` on has been put back. -/
def Piece.restored (i : Nat) (codes : List Text) : Piece → List Piece
  | .code j =>
    if j < i then [.code j]
    else match codes[j - i]? with
      | some t => t.map .char
      | none => [.code j]
  | p => [p]

theorem eq_span_of_mem_restored {codes : List Text} {i j : Nat} {p : Piece}
    (mem : .span i ∈ p.restored j codes) : p = .span i := by
  cases p with
  | char c => simp [Piece.restored] at mem
  | span k => simpa [Piece.restored, eq_comm] using mem
  | code k =>
    simp only [Piece.restored] at mem
    split at mem
    · simp at mem
    · split at mem <;> simp at mem

theorem spanNumbers_restored (i : Nat) (codes : List Text) (p : Piece) :
    spanNumbers (p.restored i codes) = spanNumbers [p] := by
  cases p with
  | char c => rfl
  | span j => rfl
  | code j =>
    simp only [Piece.restored]
    split
    · rfl
    · split <;> simp

/-- Putting code back keeps the formulas. -/
theorem spanNumbers_flatMap_restored (i : Nat) (codes : List Text) (ps : List Piece) :
    spanNumbers (ps.flatMap (Piece.restored i codes)) = spanNumbers ps := by
  induction ps with
  | nil => rfl
  | cons p ps ih =>
    rw [List.flatMap_cons, spanNumbers_append, ih, spanNumbers_restored, ← spanNumbers_append,
      List.singleton_append]

theorem flatMap_restored_putBack (i : Nat) (code : Text) (codes : List Text) (p : Piece) :
    (p.putBack i code).flatMap (Piece.restored (i + 1) codes) = p.restored i (code :: codes) := by
  cases p with
  | char c => simp [Piece.putBack, Piece.restored]
  | span j => simp [Piece.putBack, Piece.restored]
  | code j =>
    rcases Nat.lt_trichotomy j i with h | rfl | h
    · simp [Piece.putBack, Piece.restored, h, Nat.ne_of_lt h, Nat.lt_succ_of_lt h]
    · simp [Piece.putBack, Piece.restored, List.flatMap_map, ← List.map_eq_flatMap]
    · have ne : j ≠ i := Nat.ne_of_gt h
      have low : ¬j < i + 1 := by omega
      have low' : ¬j < i := by omega
      obtain ⟨k, rfl⟩ : ∃ k, j = i + 1 + k := ⟨j - (i + 1), by omega⟩
      rw [Piece.putBack, if_neg (by simpa using ne), List.flatMap_singleton, Piece.restored,
        Piece.restored, if_neg low, if_neg low', show i + 1 + k - (i + 1) = k by omega,
        show i + 1 + k - i = k + 1 by omega, List.getElem?_cons_succ]

/-- Code that has been put back makes up no word that neither it nor the text has. -/
theorem avoids_flatMap_restored {w : Text} (plain : ∀ c ∈ w, isMark c = false) {codes : List Text}
    (bounded : ∀ code ∈ codes, Bounded code) (fresh : ∀ code ∈ codes, ¬w <:+: code) (i : Nat)
    {ps : List Piece} (avoids : Avoids w ps) : Avoids w (ps.flatMap (Piece.restored i codes)) := by
  refine avoids_flatMap plain (fun p => ?_) [] avoids
  cases p with
  | char c => exact .inl rfl
  | span j => exact .inl rfl
  | code j =>
    simp only [Piece.restored]
    split
    · exact .inl rfl
    · split
      · next t found =>
        have mem := List.mem_of_getElem? found
        exact .inr ⟨rfl, t, rfl, bounded t mem, fresh t mem⟩
      · exact .inl rfl

/-- Putting code back replaces the pieces that stand for it, if the placeholders are nowhere else. -/
theorem restoreCodeFrom_spell {codes : List Text} (bounded : ∀ code ∈ codes, Bounded code) (i : Nat)
    (fresh : ∀ j, i ≤ j → j < i + codes.length → ∀ code ∈ codes, ¬codePlaceholder j <:+: code)
    {ps : List Piece} (avoids : ∀ j, i ≤ j → j < i + codes.length → Avoids (codePlaceholder j) ps) :
    Store.restoreCodeFrom i codes (spell ps) = spell (ps.flatMap (Piece.restored i codes)) := by
  induction codes generalizing i ps with
  | nil =>
    have same : Piece.restored i [] = ([·]) := by
      funext p
      cases p <;> simp [Piece.restored]
    rw [same, List.flatMap_singleton']
    rfl
  | cons code codes ih =>
    rw [List.length_cons] at fresh avoids
    have first := avoids i (Nat.le_refl i) (by omega)
    have later (j : Nat) (low : i + 1 ≤ j) (high : j < i + 1 + codes.length) :
        Avoids (codePlaceholder j) (ps.flatMap (Piece.putBack i code)) := by
      refine avoids_flatMap (isMark_eq_false_of_mem_word (p := .code j) rfl) (fun p => ?_) []
        (avoids j (by omega) (by omega))
      unfold Piece.putBack
      split
      · next here =>
        exact .inr ⟨by rw [here]; rfl, code, rfl, bounded code List.mem_cons_self,
          fresh j (by omega) (by omega) code List.mem_cons_self⟩
      · exact .inl rfl
    have step := ih (fun c hc => bounded c (List.mem_cons_of_mem _ hc)) (i + 1)
      (fun j low high c hc => fresh j (by omega) (by omega) c (List.mem_cons_of_mem _ hc)) later
    rw [List.flatMap_assoc] at step
    rw [Store.restoreCodeFrom, replaceAll_codePlaceholder_spell first, step]
    simp only [flatMap_restored_putBack]

/-! ## Clean working texts -/

section Clean

variable {codes : List Text} (isCode : ∀ code ∈ codes, IsCode code) {ps : List Piece} (clean : Clean ps)
include isCode clean

/-- Putting code back in a clean working text replaces the pieces that stand for it. -/
theorem restoreCode_spell :
    Store.restoreCode codes (spell ps) = spell (ps.flatMap (Piece.restored 0 codes)) := by
  refine restoreCodeFrom_spell (fun code hc => (isCode code hc).bounded) 0 (fun j _ _ code hc found => ?_)
    fun j _ _ => clean.avoids (p := .code j) rfl
  have start : placeholderStart <+: codePlaceholder j := by
    rw [codePlaceholder, List.append_assoc, List.append_assoc]
    exact List.prefix_append _ _
  exact (isCode code hc).fresh (start.isInfix.trans found)

theorem clean_flatMap_restored : Clean (ps.flatMap (Piece.restored 0 codes)) :=
  avoids_flatMap_restored isMark_of_mem_placeholderStart (fun code hc => (isCode code hc).bounded)
    (fun code hc => (isCode code hc).fresh) 0 clean

end Clean

end OfficeFormula.Span
