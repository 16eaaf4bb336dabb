import OfficeFormula.Omml.Render
import OfficeFormula.Text.Fold
import OfficeFormula.Text.Word

/-!
# Formulas ready to be pasted

A word processor takes a formula as one element that declares the formula namespace: a paragraph of
its own for a displayed formula, a bare formula for one inside a line. `wrap` brings written markup
into that form. It first removes the declarations and the outer formula element that the markup
already has, so that the namespace is declared exactly once.
-/

namespace OfficeFormula.Omml

/-- The namespace of Office Math Markup. -/
def namespaceName : Text :=
  "http://schemas.openxmlformats.org/officeDocument/2006/math".toList

/-- What follows a declaration of the formula namespace, and the blanks before it, at the head of
the text. -/
def afterDeclaration? (t : Text) : Option Text :=
  match t with
  | [] => none
  | c :: cs =>
    if isBlank c then do
      let value ← Text.afterWord? "xmlns:m=\"".toList (cs.dropWhile isBlank)
      match value.dropWhile (· ≠ '"') with
      | [] => none
      | _ :: rest => some rest
    else none

theorem length_lt_of_afterDeclaration? {t rest : Text} (h : afterDeclaration? t = some rest) :
    rest.length < t.length := by
  unfold afterDeclaration? at h
  split at h
  · simp at h
  · next c cs =>
    split at h
    · simp only [Option.bind_eq_bind, Option.bind_eq_some_iff] at h
      obtain ⟨value, hv, h⟩ := h
      obtain ⟨found, hfound, _⟩ := Text.exists_append_of_afterWord? hv
      have h1 := (List.dropWhile_sublist isBlank (l := cs)).length_le
      have h2 := (List.dropWhile_sublist (fun x : Char => decide (x ≠ '"')) (l := value)).length_le
      rw [hfound, List.length_append] at h1
      split at h
      · simp at h
      · next heq =>
        rw [heq] at h2
        simp only [Option.some.injEq] at h
        subst h
        simp only [List.length_cons] at h2 ⊢
        omega
    · simp at h

/-- The markup without its declarations of the formula namespace. -/
def removeDeclarations (t : Text) : Text :=
  match h : afterDeclaration? t with
  | some rest =>
    have := length_lt_of_afterDeclaration? h
    removeDeclarations rest
  | none =>
    match t with
    | [] => []
    | c :: cs => c :: removeDeclarations cs
termination_by t.length

/-- The rest of the start tag of a formula element, at the head of the text. -/
def afterFormulaName? (t : Text) : Option Text := do
  let rest ← Text.afterWord? "<m:omath".toList t
  if endsWord rest then some rest else none

/-- The text is a formula element without content. -/
def isEmptyFormula (t : Text) : Bool :=
  match afterFormulaName? t with
  | some rest => rest.dropWhile (· ≠ '>') = ['>'] && (rest.dropLast.getLast? = some '/')
  | none => false

/-- What stands between the tags of the formula element that the text is. -/
def formulaContent? (t : Text) : Option Text := do
  let rest ← afterFormulaName? t
  match rest.dropWhile (· ≠ '>') with
  | [] => none
  | _ :: inner =>
    let split := inner.length - "</m:omath>".length
    if Text.afterWord? "</m:omath>".toList (inner.drop split) = some [] then
      some (inner.take split)
    else none

/-- The markup inside the formula element, whether the markup has one or not. -/
def innerMarkup (markup : Text) : Text :=
  let cleaned := (removeDeclarations markup).trim
  if isEmptyFormula cleaned then [] else (formulaContent? cleaned).getD cleaned

/-- The declaration of the formula namespace, as an attribute. -/
def declaration : Text := " xmlns:m=\"".toList ++ namespaceName ++ ['"']

/-- A formula element around written content, with `attrs` in its start tag. -/
def formulaElement (attrs inner : Text) : Text :=
  if inner = [] then "<m:oMath".toList ++ attrs ++ "/>".toList
  else "<m:oMath".toList ++ attrs ++ '>' :: inner ++ "</m:oMath>".toList

/-- Written content as a paragraph of its own, or as a formula inside a line. -/
def template (display : Bool) (inner : Text) : Text :=
  if display then
    "<m:oMathPara".toList ++ declaration ++ '>' :: formulaElement [] inner
      ++ "</m:oMathPara>".toList
  else formulaElement declaration inner

/-- Written markup in the form that can be pasted. -/
def wrap (markup : Text) (display : Bool) : Text := template display (innerMarkup markup)

/-- What follows something in the form of a tag at the head of the text: a less-than sign, at least
one character, and the next greater-than sign. -/
def afterTag? (t : Text) : Option Text :=
  match t with
  | '<' :: cs =>
    if cs.head? = some '>' then none
    else match cs.dropWhile (· ≠ '>') with
      | [] => none
      | _ :: rest => some rest
  | _ => none

theorem length_lt_of_afterTag? {t rest : Text} (h : afterTag? t = some rest) :
    rest.length < t.length := by
  unfold afterTag? at h
  split at h
  · next cs =>
    split at h
    · simp at h
    · split at h
      · simp at h
      · next heq =>
        have := (List.dropWhile_sublist (fun x : Char => decide (x ≠ '>')) (l := cs)).length_le
        rw [heq] at this
        simp only [Option.some.injEq] at h
        subst h
        simp only [List.length_cons] at this ⊢
        omega
  · simp at h

/-- The text without everything that has the form of a tag. -/
def removeTags (t : Text) : Text :=
  match h : afterTag? t with
  | some rest =>
    have := length_lt_of_afterTag? h
    removeTags rest
  | none =>
    match t with
    | [] => []
    | c :: cs => c :: removeTags cs
termination_by t.length

/-- The text of written markup: what is left when everything in the form of a tag is taken out. -/
def stripTags (markup : Text) : Text := (removeTags markup).trim

end OfficeFormula.Omml
