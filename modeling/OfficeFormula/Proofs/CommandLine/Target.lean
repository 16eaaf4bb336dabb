import OfficeFormula.CommandLine.Run
import OfficeFormula.Proofs.Text.Search

/-!
# Where the result goes

If no other place is asked for, the result is to go beside the input, under its name with another extension. The
path is cut at its last period, wherever that is. So this holds if the name of the input has an extension, or if
the whole path has no period, and in no other case (`targetOf_beside_iff`): a period in the name of a directory
takes the result out of that directory (`targetOf_elsewhere`).
-/

namespace OfficeFormula.CommandLine

/-! ## Parts of a path -/

/-- The name of the file that a path leads to. -/
def fileName (path : Text) : Text := (path.reverse.takeWhile (· ≠ '/')).reverse

/-- The name of a file without its last extension, if it has one. Periods at the beginning begin no extension. -/
def stem? (name : Text) : Option Text := (beforeLast? '.' name).filter fun before => before.any (· ≠ '.')

/-- The name of a file with another extension, or with one if it has none. -/
def htmlName (name : Text) : Text := (stem? name).getD name ++ ".html".toList

theorem exists_last {c : Char} {t : Text} (h : c ∈ t) : ∃ before after, t = before ++ c :: after ∧ c ∉ after := by
  obtain ⟨as, bs, split, first⟩ := List.eq_append_cons_of_mem (List.mem_reverse.2 h)
  refine ⟨bs.reverse, as.reverse, ?_, by simpa using first⟩
  rw [← List.reverse_reverse t, split]
  simp

theorem beforeLast?_append {c : Char} {after : Text} (h : c ∉ after) (before : Text) :
    beforeLast? c (before ++ c :: after) = some before := by
  have reversed : (before ++ c :: after).reverse = after.reverse ++ c :: before.reverse := by simp
  rw [beforeLast?, reversed, Text.dropWhile_ne_append_cons (by simpa using h)]
  simp

theorem beforeLast?_of_not_mem {c : Char} {t : Text} (h : c ∉ t) : beforeLast? c t = none := by
  rw [beforeLast?, Text.dropWhile_ne_eq_nil (by simpa using h)]

theorem stem?_append {after : Text} (h : '.' ∉ after) (before : Text) :
    stem? (before ++ '.' :: after) = if before.any (· ≠ '.') then some before else none := by
  rw [stem?, beforeLast?_append h, Option.filter_some]

theorem stem?_of_not_mem {name : Text} (h : '.' ∉ name) : stem? name = none := by
  rw [stem?, beforeLast?_of_not_mem h, Option.filter_none]

theorem fileName_append {name : Text} (h : '/' ∉ name) (directory : Text) :
    fileName (directory ++ '/' :: name) = name := by
  have reversed : (directory ++ '/' :: name).reverse = name.reverse ++ '/' :: directory.reverse := by simp
  rw [fileName, reversed, Text.takeWhile_ne_append_cons (by simpa using h), List.reverse_reverse]

/-- The directory of a path from the root is what stands before the last slash, and the root itself if there are
only slashes. -/
theorem directoryOf_append {name : Text} (h : '/' ∉ name) (directory : Text) :
    directoryOf (directory ++ '/' :: name) =
      if directory.all (· = '/') then directory ++ ['/'] else directory := by
  rw [directoryOf, beforeLast?_append h]
  rfl

theorem head?_absolute (currentDirectory path : Text) : (absolute currentDirectory path).head? = some '/' := by
  rw [absolute, rootSlashes]
  split
  · rfl
  · rfl

/-- What follows the last slash of a path is the name. -/
theorem exists_absolute (currentDirectory path : Text) :
    ∃ directory name, absolute currentDirectory path = directory ++ '/' :: name ∧ '/' ∉ name :=
  exists_last (List.mem_of_head? (head?_absolute currentDirectory path))

/-! ## The default target -/

section Target

variable {currentDirectory input directory name : Text}

/-- A period in the name is the last one of the path. -/
theorem defaultTarget_of_mem {before after : Text}
    (path : absolute currentDirectory input = directory ++ '/' :: (before ++ '.' :: after)) (last : '.' ∉ after) :
    defaultTarget currentDirectory input = directory ++ '/' :: (before ++ ".html".toList) := by
  have cut : directory ++ '/' :: (before ++ '.' :: after) = (directory ++ '/' :: before) ++ '.' :: after := by simp
  rw [defaultTarget, path, cut, beforeLast?_append last]
  simp

theorem defaultTarget_of_not_mem (none : '.' ∉ absolute currentDirectory input) :
    defaultTarget currentDirectory input = absolute currentDirectory input ++ ".html".toList := by
  rw [defaultTarget, beforeLast?_of_not_mem none]
  rfl

theorem count_directoryOf (inName : '/' ∉ name) :
    (directoryOf (directory ++ '/' :: name)).count '.' = directory.count '.' := by
  rw [directoryOf_append inName]
  split
  · simp
  · rfl

/-- If the last period is in the name of a directory, the target is in another directory: its path has one period
less. -/
theorem directoryOf_defaultTarget_ne (path : absolute currentDirectory input = directory ++ '/' :: name)
    (inName : '/' ∉ name) (plain : '.' ∉ name) (dotted : '.' ∈ directory) :
    directoryOf (defaultTarget currentDirectory input) ≠ directoryOf (absolute currentDirectory input) := by
  obtain ⟨before, after, rfl, last⟩ := exists_last dotted
  have cut : (before ++ '.' :: after) ++ '/' :: name = before ++ '.' :: (after ++ '/' :: name) := by simp
  have target : defaultTarget currentDirectory input = before ++ ".html".toList := by
    rw [defaultTarget, path, cut, beforeLast?_append (by simp [last, plain])]
    rfl
  have rooted : '/' ∈ before := by
    have first := head?_absolute currentDirectory input
    rw [path, cut] at first
    cases before with
    | nil => simp at first
    | cons c cs =>
      obtain rfl := Option.some.inj first
      exact List.mem_cons_self
  obtain ⟨outer, inner, rfl, innermost⟩ := exists_last rooted
  intro same
  have counts := congrArg (List.count '.') same
  rw [path, count_directoryOf inName, target, List.append_assoc, List.cons_append,
    count_directoryOf (by simpa using innermost)] at counts
  simp only [List.count_append, List.count_cons_self] at counts
  omega

/-- The target is beside the input, under its name, exactly if the name has an extension or the path no period. -/
theorem defaultTarget_beside_iff (currentDirectory input : Text) :
    let path := absolute currentDirectory input
    let target := defaultTarget currentDirectory input
    directoryOf target = directoryOf path ∧ fileName target = htmlName (fileName path) ↔
      (stem? (fileName path)).isSome = true ∨ '.' ∉ path := by
  intro path target
  obtain ⟨directory, name, split, inName⟩ := exists_absolute currentDirectory input
  have named : fileName path = name := by rw [← fileName_append inName directory, ← split]
  by_cases dotted : '.' ∈ name
  · obtain ⟨before, after, rfl, last⟩ := exists_last dotted
    have inBefore : '/' ∉ before ++ ".html".toList := by
      have : '/' ∉ before := fun h => inName (List.mem_append_left _ h)
      simpa using this
    have reached : target = directory ++ '/' :: (before ++ ".html".toList) := defaultTarget_of_mem split last
    have beside : directoryOf target = directoryOf path := by
      rw [reached, directoryOf_append inBefore, ← directoryOf_append inName, ← split]
    have inPath : '.' ∈ path := by simp [path, split]
    have renamed : fileName target = before ++ ".html".toList := by rw [reached, fileName_append inBefore]
    rw [renamed, named, htmlName, List.append_cancel_right_eq, stem?_append last]
    split
    · exact iff_of_true ⟨beside, rfl⟩ (.inl rfl)
    · exact iff_of_false (by simp) (by simpa using inPath)
  · have plain := stem?_of_not_mem dotted
    rw [named, plain]
    by_cases deeper : '.' ∈ directory
    · refine iff_of_false (fun h => directoryOf_defaultTarget_ne split inName dotted deeper h.1) ?_
      simp [path, split, deeper]
    · have none : '.' ∉ path := by simp [path, split, deeper, dotted]
      have longer : '/' ∉ name ++ ".html".toList := by simpa using inName
      have reached : target = directory ++ '/' :: (name ++ ".html".toList) := by
        rw [← List.cons_append, ← List.append_assoc, ← split]
        exact defaultTarget_of_not_mem none
      refine iff_of_true ⟨?_, ?_⟩ (.inr none)
      · rw [reached, directoryOf_append longer, ← directoryOf_append inName, ← split]
      · rw [reached, fileName_append longer, htmlName, plain]
        rfl

end Target

/-- If no other place is asked for, the result goes beside the input, under its name with another extension, exactly
if that name has an extension or the whole path has no period. -/
theorem targetOf_beside_iff {o : Options} (given : o.input ≠ standard) (unasked : o.output = none)
    (currentDirectory : Text) :
    let path := absolute currentDirectory o.input
    let target := targetOf o currentDirectory
    directoryOf target = directoryOf path ∧ fileName target = htmlName (fileName path) ↔
      (stem? (fileName path)).isSome = true ∨ '.' ∉ path := by
  have target : targetOf o currentDirectory = defaultTarget currentDirectory o.input := by
    rw [targetOf, unasked]
    exact if_neg given
  rw [target]
  exact defaultTarget_beside_iff currentDirectory o.input

/-- The options that ask for one input and nothing else. -/
def inputOnly (input : Text) : Options := { Options.default with input := input }

theorem targetOf_beside_iff_twoPeriods :
    let o := inputOnly "../notes/v1.2.md".toList
    o.input ≠ standard ∧ o.output = none ∧ targetOf o "/home/a.b".toList = "/home/notes/v1.2.html".toList ∧
      (directoryOf (targetOf o "/home/a.b".toList) = "/home/notes".toList ∧
          fileName (targetOf o "/home/a.b".toList) = htmlName "v1.2.md".toList ↔
        (stem? "v1.2.md".toList).isSome = true ∨ '.' ∉ "/home/notes/v1.2.md".toList) := by
  intro o
  have given : o.input ≠ standard := by decide
  have unasked : o.output = none := rfl
  refine ⟨given, unasked, by decide, ?_⟩
  exact targetOf_beside_iff given unasked "/home/a.b".toList

/-- A period in the name of the directory, and none in that of the file: the result goes to another directory, under
the name of the first one. -/
theorem targetOf_elsewhere :
    let o := inputOnly "a.b/c".toList
    absolute "/home".toList o.input = "/home/a.b/c".toList ∧
      targetOf o "/home".toList = "/home/a.html".toList ∧
      directoryOf (targetOf o "/home".toList) ≠ directoryOf (absolute "/home".toList o.input) := by
  decide

end OfficeFormula.CommandLine
