import OfficeFormula.Proofs.Span.Lossless

/-!
# Code stays as it is written

Code that no formula takes in is put back where it was. The working text then has a piece for it
(`exists_code_or_span`), pieces that stand one behind the other in the text do so in what is given back
(`inOrder_of_pieces`), and so all such code is there, in its order (`exists_inOrder_code`).
-/

namespace OfficeFormula.Span

/-- The parts stand in the text one behind the other. -/
def InOrder : List Text → Text → Prop
  | [], _ => True
  | part :: parts, t => ∃ before rest, t = before ++ part ++ rest ∧ InOrder parts rest

/-- Code in a text, as it is found before formulas are looked for. -/
theorem CodeRegion.prefix_text {t before code : Text} (fresh : ¬placeholderStart <:+: t)
    (region : CodeRegion .empty t before code) : before ++ code <+: t := by
  obtain ⟨codes, first, stashed, _⟩ := exists_code_setAside (s := .empty) (by simp [Store.empty]) fresh
  obtain ⟨us, i, vs, rfl, rfl, rfl⟩ := stashed.regions before code region
  refine ⟨readBack codes vs, ?_⟩
  rw [← stashed.text, readBack_append, readBack_cons _ _ vs, List.append_assoc]

/-! ## Pieces of code -/

/-- Code of the first text is a piece of the working text, or a formula has been made from it. -/
theorem exists_code_or_span {σ : Nat → List Piece} {ps us vs : List Piece} {i : Nat}
    (h : ps.flatMap (Piece.source σ) = us ++ .code i :: vs) :
    (∃ as cs, ps = as ++ .code i :: cs ∧ as.flatMap (Piece.source σ) = us) ∨
      ∃ as j cs ws ws', ps = as ++ .span j :: cs ∧ σ j = ws ++ .code i :: ws' ∧
        us = as.flatMap (Piece.source σ) ++ ws := by
  induction ps generalizing us with
  | nil => simp at h
  | cons p ps ih =>
    -- Code behind the first piece is found among the others.
    have behind {ws : List Piece} (before : us = p.source σ ++ ws)
        (rest : ps.flatMap (Piece.source σ) = ws ++ .code i :: vs) :
        (∃ as cs, p :: ps = as ++ .code i :: cs ∧ as.flatMap (Piece.source σ) = us) ∨
          ∃ as j cs ws ws', p :: ps = as ++ .span j :: cs ∧ σ j = ws ++ .code i :: ws' ∧
            us = as.flatMap (Piece.source σ) ++ ws := by
      rcases ih rest with ⟨as, cs, rfl, rfl⟩ | ⟨as, j, cs, ws', ws'', rfl, made, rfl⟩
      · exact .inl ⟨p :: as, cs, rfl, by rw [before, List.flatMap_cons]⟩
      · refine .inr ⟨p :: as, j, cs, ws', ws'', rfl, made, ?_⟩
        rw [before, List.flatMap_cons, List.append_assoc]
    have split : us ++ .code i :: vs = [] ++ p.source σ ++ ps.flatMap (Piece.source σ) := by
      rw [← h, List.flatMap_cons, List.nil_append]
    rcases exists_part_of_append split with ⟨ws, nothing⟩ | ⟨ws, ws', before, here⟩ | ⟨ws, before⟩
    · simp at nothing
    · cases p with
      | char c => simp [Piece.source, List.singleton_eq_append_iff] at here
      | code j =>
        simp only [Piece.source, List.singleton_eq_append_iff, List.cons.injEq, Piece.code.injEq] at here
        rcases here with ⟨rfl, rfl, rfl⟩ | ⟨_, nothing⟩
        · exact .inl ⟨[], ps, rfl, by simpa using before.symm⟩
        · simp at nothing
      | span j => exact .inr ⟨[], j, ps, ws, ws', rfl, here, by simpa using before⟩
    · rw [List.nil_append] at before
      refine behind before ?_
      rw [before, List.append_assoc, List.nil_append, List.append_cancel_left_eq] at split
      exact split.symm

/-- A stretch of text that is a piece of code in what is still to be read. -/
def AtCode (codes : List Text) (σ : Nat → List Piece) (done todo : List Piece) (r : Text × Text) : Prop :=
  ∃ ws i cs, todo = ws ++ .code i :: cs ∧ readBack codes ((done ++ ws).flatMap (Piece.source σ)) = r.1 ∧
    readBack codes [.code i] = r.2

/-- Code that comes later in the text is a later piece. -/
theorem AtCode.later {codes : List Text} {σ : Nat → List Piece} {done ws cs : List Piece} {i : Nat}
    {r : Text × Text} (atCode : AtCode codes σ done (ws ++ .code i :: cs) r)
    (behind : (readBack codes ((done ++ ws).flatMap (Piece.source σ))).length < r.1.length) :
    AtCode codes σ (done ++ (ws ++ [.code i])) cs r := by
  obtain ⟨ws', j, cs', split, before, here⟩ := atCode
  rcases List.append_eq_append_iff.1 split with ⟨as, rfl, rest⟩ | ⟨as, rfl, _⟩
  · cases as with
    | nil =>
      rw [← before, List.append_nil] at behind
      exact absurd behind (Nat.lt_irrefl _)
    | cons a as =>
      rw [List.cons_append, List.cons.injEq] at rest
      obtain ⟨rfl, rfl⟩ := rest
      exact ⟨as, j, cs', rfl, by simpa using before, here⟩
  · rw [← before, ← List.append_assoc, List.flatMap_append, readBack_append, List.length_append] at behind
    omega

theorem inOrder_of_pieces {codes : List Text} {σ : Nat → List Piece} {regions : List (Text × Text)}
    (ordered : regions.Pairwise (·.1.length < ·.1.length)) :
    ∀ done todo, (∀ r ∈ regions, AtCode codes σ done todo r) →
      InOrder (regions.map Prod.snd) (readBack codes todo) := by
  induction ordered with
  | nil => exact fun _ _ _ => trivial
  | @cons r regions first _ ih =>
    intro done todo atCode
    obtain ⟨ws, i, cs, rfl, before, here⟩ := atCode r List.mem_cons_self
    refine ⟨readBack codes ws, readBack codes cs, ?_, ih (done ++ (ws ++ [.code i])) cs ?_⟩
    · rw [readBack_append, readBack_cons _ _ cs, here, List.append_assoc]
    · intro r' hr'
      refine (atCode r' (List.mem_cons_of_mem _ hr')).later ?_
      rw [before]
      exact first r' hr'

/-! ## The whole text -/

/-- Code of a text that is in none of the stretches that formulas were made from. -/
structure FreeCode (spans : List Entry) (carrier : Text) (source : Text → Text) (t before code : Text) :
    Prop where
  found : CodeRegion .empty t before code
  free : ∀ before' word, ReplacedAt (spans.map Entry.word) source carrier before' word →
    ¬(Stretch.behind before code).Inside (.behind before' (source word))

/-- All code that no formula takes in is in what is given back, in its order. -/
theorem exists_inOrder_code (soft : SoftParentheses) {t : Text} (fresh : ¬placeholderStart <:+: t) :
    ∃ source,
      replaceWords ((protectWith soft .empty t).1.spans.map Entry.word) source
        (protectWith soft .empty t).2 = t ∧
      ∀ regions : List (Text × Text), regions.Pairwise (·.1.length < ·.1.length) →
        (∀ r ∈ regions,
          FreeCode (protectWith soft .empty t).1.spans (protectWith soft .empty t).2 source t r.1 r.2) →
        InOrder (regions.map Prod.snd) (protectWith soft .empty t).2 := by
  have start : (Store.empty.spans.map Entry.index).Perm [] := .nil
  obtain ⟨codes, first, ps, stashed, ⟨σ, tracks⟩, text⟩ :=
    exists_working soft (by simp [Store.empty]) fresh start (by simp [Store.empty])
      (by simp [Store.empty])
  obtain ⟨source, sources⟩ := exists_source fun i => readBack codes (σ i)
  have carrier : (protectWith soft .empty t).2 = readBack codes ps := text
  rw [carrier]
  generalize (protectWith soft .empty t).1 = s at tracks
  refine ⟨source, replaceWords_readBack stashed tracks sources, ?_⟩
  intro regions ordered free
  refine inOrder_of_pieces (σ := σ) ordered [] ps fun r hr => ?_
  obtain ⟨us, i, vs, split, before, here⟩ := stashed.regions r.1 r.2 (free r hr).found
  rcases exists_code_or_span (tracks.source.trans split) with
    ⟨as, cs, pieces, rfl⟩ | ⟨as, j, cs, ws, ws', pieces, made, rfl⟩
  · exact ⟨as, i, cs, pieces, before, here⟩
  · -- The formula that was made from the code would have it inside.
    have replaced := (replacedAt_iff stashed tracks sources).2 ⟨as, j, cs, pieces, rfl, rfl⟩
    refine absurd ?_ ((free r hr).free _ _ replaced)
    rw [← before, ← here, sources, made, readBack_append, readBack_append, readBack_cons _ _ ws']
    unfold Stretch.Inside Stretch.behind
    simp only [List.length_append]
    omega

end OfficeFormula.Span
