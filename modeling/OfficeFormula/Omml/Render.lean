import OfficeFormula.Omml.Node

/-!
# Written form of Office Math Markup

Elements without children close themselves, attributes stand in double quotes, and the five
characters that markup reserves are written as references, in text and in attributes alike.
-/

namespace OfficeFormula.Omml

/-- A character as it is written in text and in attribute values. -/
def escapeChar : Char → Text
  | '&' => "&amp;".toList
  | '<' => "&lt;".toList
  | '>' => "&gt;".toList
  | '"' => "&quot;".toList
  | '\'' => "&apos;".toList
  | c => [c]

/-- Text as it is written in markup. -/
def escape (t : Text) : Text := t.flatMap escapeChar

/-- Written text has neither tags nor the ends of attribute values in it. -/
theorem not_mem_escape {c : Char} (reserved : c ∈ ['<', '>', '"', '\'']) (t : Text) : c ∉ escape t := by
  intro h
  obtain ⟨d, -, hd⟩ := List.mem_flatMap.1 h
  simp only [List.mem_cons, List.not_mem_nil, or_false] at reserved
  revert hd
  fun_cases escapeChar d with
  | case6 _ amp lt gt quot apos =>
    intro hd
    obtain rfl := List.mem_singleton.1 hd
    rcases reserved with same | same | same | same
    · exact lt same
    · exact gt same
    · exact quot same
    · exact apos same
  | _ => rcases reserved with rfl | rfl | rfl | rfl <;> decide

/-- An attribute, after the blank that separates it. -/
def renderAttr (attr : String × Text) : Text :=
  ' ' :: attr.1.toList ++ "=\"".toList ++ escape attr.2 ++ ['"']

/-- The name and the attributes of a tag. -/
def renderHead (tag : String) (attrs : List (String × Text)) : Text :=
  '<' :: tag.toList ++ attrs.flatMap renderAttr

namespace Node

mutual

/-- The written form of a node. -/
def render : Node → Text
  | element tag attrs [] => renderHead tag attrs ++ "/>".toList
  | element tag attrs (n :: ns) =>
    renderHead tag attrs ++ '>' :: (n.render ++ renderAll ns) ++ "</".toList ++ tag.toList ++ ['>']
  | text t => escape t

def renderAll : List Node → Text
  | [] => []
  | n :: ns => n.render ++ renderAll ns

end

end Node

/-- The last resort for a formula: its text as one run. -/
def fallback (t : Text) : Text := (formula [run t false]).render

end OfficeFormula.Omml
