import OfficeFormula.Proofs.Span.Delimiter
import OfficeFormula.Proofs.Text.Words

/-!
# The two forms of code

A block of code takes whole lines: it begins at the beginning of a line and does not end with a
newline (`exists_of_fencedCode`). A span of code stands between backticks on one line
(`exists_of_codeSpan`). Both begin and end with marks.
-/

namespace OfficeFormula

namespace Span

theorem exists_of_throughLine? {p : Text → Bool} {t body : Text} (h : throughLine? p t = some body) :
    ∃ before line rest, t = body ++ rest ∧ body = before ++ line ∧ p line = true := by
  simp only [throughLine?, Option.map_eq_some_iff] at h
  obtain ⟨i, hi, rfl⟩ := h
  obtain ⟨bound, accepted, _⟩ := List.findIdx?_eq_some_iff_getElem.1 hi
  obtain ⟨rest, hrest⟩ := Text.join_take_prefix ['\n'] (Text.lines t) (i + 1)
  rw [Text.join_lines] at hrest
  obtain ⟨before, hbefore⟩ := Text.join_concat ['\n'] ((Text.lines t).take i) (Text.lines t)[i]
  refine ⟨before, (Text.lines t)[i], rest, hrest.symm, ?_, accepted⟩
  rw [← hbefore, List.take_append_getElem]

/-- A line that closes a block of code ends with the character of the fence or with a blank. -/
theorem exists_last_of_isFenceLine {c : Char} {n : Nat} {line : Text} (positive : 0 < n)
    (h : isFenceLine c n line = true) :
    ∃ r d, line = r ++ [d] ∧ (d = c ∨ isTabOrSpace d = true) := by
  simp only [isFenceLine, Bool.and_eq_true, decide_eq_true_eq] at h
  obtain ⟨fence, blanks⟩ := h
  have line_eq : line = line.takeWhile isTabOrSpace ++ line.dropWhile isTabOrSpace :=
    List.takeWhile_append_dropWhile.symm
  generalize line.dropWhile isTabOrSpace = bare at *
  generalize line.takeWhile isTabOrSpace = indent at line_eq
  have bare_eq := List.take_append_drop n bare
  rw [fence] at bare_eq
  rcases List.eq_nil_or_concat (bare.drop n) with none | ⟨r, d, some⟩
  · obtain ⟨m, rfl⟩ : ∃ m, n = m + 1 := ⟨n - 1, by omega⟩
    refine ⟨indent ++ List.replicate m c, c, ?_, .inl rfl⟩
    rw [line_eq, ← bare_eq, none, List.append_nil, List.replicate_succ']
    simp
  · refine ⟨indent ++ (List.replicate n c ++ r), d, ?_, .inr ?_⟩
    · rw [line_eq, ← bare_eq, some]
      simp
    · exact List.all_eq_true.1 blanks d (by simp [some])

theorem pos_of_mem_fenceLengths {n m : Nat} (h : n ∈ fenceLengths m) : 0 < n := by
  simp only [fenceLengths, List.mem_map, List.mem_range] at h
  obtain ⟨k, hk, rfl⟩ := h
  omega

/-- A block of code begins at the beginning of a line. Its first and last characters are marks, and
it does not end with a newline. -/
theorem exists_of_fencedCode {previous : Option Char} {t : Text} {hit : Hit}
    (h : fencedCode previous t = some hit) :
    atLineStart previous = true ∧ ∃ source rest, t = source ++ rest ∧
      hit.length = source.length ∧ Bounded source ∧ ∀ r, source ≠ r ++ ['\n'] := by
  unfold fencedCode at h
  split at h
  · next start =>
    refine ⟨start, ?_⟩
    have t_eq := Text.eq_takeWhile_append_drop Text.notNewline t
    simp only at h
    generalize t.takeWhile Text.notNewline = opening at h t_eq
    split at h
    · next c cs x below bare_eq drop_eq =>
      rw [drop_eq] at t_eq
      have opening_eq : opening = opening.takeWhile isTabOrSpace ++ c :: cs := by
        rw [← bare_eq, List.takeWhile_append_dropWhile]
      have indent : ∀ d ∈ opening.takeWhile isTabOrSpace, isTabOrSpace d = true :=
        List.all_eq_true.1 List.all_takeWhile
      generalize opening.takeWhile isTabOrSpace = lead at opening_eq indent
      split at h
      · next fence =>
        obtain ⟨body, hbody, rfl⟩ := Option.map_eq_some_iff.1 h
        obtain ⟨n, hn, hthrough⟩ := List.exists_of_findSome?_eq_some hbody
        obtain ⟨before, line, rest, rfl, rfl, closes⟩ := exists_of_throughLine? hthrough
        obtain ⟨r, d, rfl, last⟩ := exists_last_of_isFenceLine (pos_of_mem_fenceLengths hn) closes
        have mark : isMark c = true := by
          simp only [Bool.or_eq_true, decide_eq_true_eq] at fence
          rcases fence with rfl | rfl <;> decide
        have mark' : isMark d = true := by
          rcases last with rfl | blank
          · exact mark
          · exact isMark_of_isTabOrSpace blank
        have newline : d ≠ '\n' := by
          rintro rfl
          rcases last with rfl | blank
          · simp at fence
          · simp [isTabOrSpace] at blank
        refine ⟨opening ++ x :: (before ++ (r ++ [d])), rest, ?_, ?_, ⟨?_, ?_⟩, ?_⟩
        · rw [t_eq]
          simp
        · simp
          omega
        · cases lead with
          | nil => exact ⟨c, _, by rw [opening_eq]; rfl, mark⟩
          | cons e lead =>
            exact ⟨e, _, by rw [opening_eq]; rfl,
              isMark_of_isTabOrSpace (indent e List.mem_cons_self)⟩
        · exact ⟨opening ++ x :: (before ++ r), d, by simp, mark'⟩
        · intro r' he
          have shape : opening ++ x :: (before ++ (r ++ [d])) = opening ++ x :: (before ++ r) ++ [d] := by
            simp
          rw [shape] at he
          exact newline (List.append_inj_right' he rfl |> List.singleton_inj.1)
      · simp at h
    · simp at h
  · simp at h

theorem exists_of_beforeTicks? {allowed : Char → Bool} {n : Nat} {previous : Char} {t u : Text}
    (h : beforeTicks? allowed n previous t = some u) :
    ∃ rest, t = u ++ List.replicate n '`' ++ rest ∧ ∀ c ∈ u, allowed c = true := by
  induction t generalizing previous u with
  | nil => simp [beforeTicks?] at h
  | cons c cs ih =>
    simp only [beforeTicks?] at h
    split at h
    · next ticks =>
      rw [Option.some.injEq] at h
      subst h
      simp only [Bool.and_eq_true, decide_eq_true_eq] at ticks
      obtain ⟨rest, hrest⟩ := List.takeWhile_prefix (· = '`') (l := c :: cs)
      refine ⟨rest, ?_, by simp⟩
      rw [← hrest, List.nil_append]
      congr 1
      refine List.eq_replicate_iff.2 ⟨ticks.2, ?_⟩
      intro d hd
      have := List.all_eq_true.1 List.all_takeWhile d hd
      simpa using this
    · split at h
      · next allowed_c =>
        obtain ⟨v, hv, rfl⟩ := Option.map_eq_some_iff.1 h
        obtain ⟨rest, rfl, hall⟩ := ih hv
        refine ⟨rest, by simp, ?_⟩
        intro d hd
        rcases List.mem_cons.1 hd with rfl | hd
        · exact allowed_c
        · exact hall d hd
      · simp at h

/-- A span of code stands between backticks, on one line. -/
theorem exists_of_codeSpan {previous : Option Char} {t : Text} {hit : Hit}
    (h : codeSpan previous t = some hit) :
    ∃ middle rest, t = '`' :: middle ++ ['`'] ++ rest ∧ hit.length = middle.length + 2 ∧
      '\n' ∉ middle := by
  unfold codeSpan at h
  split at h
  · simp at h
  · simp only at h
    have t_eq := Text.eq_takeWhile_append_drop (· = '`') t
    have ticks : t.takeWhile (· = '`') = List.replicate (t.takeWhile (· = '`')).length '`' := by
      refine List.eq_replicate_iff.2 ⟨rfl, ?_⟩
      intro d hd
      have := List.all_eq_true.1 List.all_takeWhile d hd
      simpa using this
    generalize (t.takeWhile (· = '`')).length = n at h t_eq ticks
    rw [ticks] at t_eq
    split at h
    · simp at h
    · next positive =>
      obtain ⟨m, rfl⟩ : ∃ m, n = m + 1 := ⟨n - 1, by omega⟩
      split at h
      · simp at h
      · next c cs drop_eq =>
        split at h
        · simp at h
        · next line =>
          obtain ⟨content, hcontent, rfl⟩ := Option.map_eq_some_iff.1 h
          obtain ⟨rest, rfl, allowed⟩ := exists_of_beforeTicks? hcontent
          rw [drop_eq] at t_eq
          refine ⟨List.replicate m '`' ++ c :: content ++ List.replicate m '`', rest, ?_, ?_, ?_⟩
          · have closing : List.replicate (m + 1) '`' ++ rest = List.replicate m '`' ++ ['`'] ++ rest := by
              rw [List.replicate_succ']
            rw [t_eq, List.append_assoc content, closing, List.replicate_succ]
            simp
          · simp
            omega
          · simp only [List.mem_append, List.mem_cons, List.mem_replicate, not_or]
            refine ⟨⟨by simp, fun he => line he.symm, fun hc => ?_⟩, by simp⟩
            simpa [Text.notNewline] using allowed _ hc

theorem findsBounded_fencedCode : FindsBounded fencedCode := by
  intro previous t hit h
  obtain ⟨_, source, rest, text, length, bounded, _⟩ := exists_of_fencedCode h
  exact ⟨source, rest, text, length, bounded⟩

theorem findsBounded_codeSpan : FindsBounded codeSpan := by
  intro previous t hit h
  obtain ⟨middle, rest, text, length, _⟩ := exists_of_codeSpan h
  refine ⟨'`' :: middle ++ ['`'], rest, text, by simp [length], ⟨'`', middle ++ ['`'], by simp, by decide⟩,
    ⟨'`' :: middle, '`', by simp, by decide⟩⟩

end Span

end OfficeFormula
