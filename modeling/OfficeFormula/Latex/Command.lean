import OfficeFormula.Text.Basic

/-!
# Commands of LaTeX math

What each command name means to the grammar. A name that no table knows keeps its letters as text.
-/

namespace OfficeFormula.Latex

/-- Big operators, whose scripts are limits. -/
def bigOperators : List (String × Char) := [("sum", '∑'), ("prod", '∏'), ("int", '∫')]

/-- Letters and other ordinary symbols. -/
def symbols : List (String × Char) := [
  ("alpha", 'α'), ("beta", 'β'), ("gamma", 'γ'), ("delta", 'δ'), ("epsilon", 'ε'), ("zeta", 'ζ'),
  ("eta", 'η'), ("theta", 'θ'), ("kappa", 'κ'), ("lambda", 'λ'), ("mu", 'μ'), ("nu", 'ν'),
  ("xi", 'ξ'), ("pi", 'π'), ("rho", 'ρ'), ("sigma", 'σ'), ("tau", 'τ'), ("phi", 'φ'),
  ("chi", 'χ'), ("psi", 'ψ'), ("omega", 'ω'), ("Gamma", 'Γ'), ("Delta", 'Δ'), ("Theta", 'Θ'),
  ("Lambda", 'Λ'), ("Sigma", 'Σ'), ("Phi", 'Φ'), ("Omega", 'Ω'), ("infty", '∞'), ("partial", '∂'),
  ("nabla", '∇'), ("ldots", '…'), ("cdots", '⋯'), ("langle", '⟨'), ("rangle", '⟩')]

/-- Operators and relations. -/
def relations : List (String × Char) := [
  ("pm", '±'), ("times", '×'), ("div", '÷'), ("cdot", '·'), ("leq", '≤'), ("le", '≤'),
  ("geq", '≥'), ("ge", '≥'), ("neq", '≠'), ("ne", '≠'), ("approx", '≈'), ("equiv", '≡'),
  ("in", '∈'), ("rightarrow", '→'), ("to", '→'), ("leftarrow", '←'), ("Rightarrow", '⇒')]

/-- Commands that only choose a font: they stand for their argument. -/
def fontCommands : List String := [
  "text", "textrm", "textbf", "mathrm", "mathbf", "mathit", "mathsf", "mathtt", "mathcal",
  "mathbb", "operatorname", "boldsymbol"]

/-- Commands that print nothing here: narrow spaces, style switches, rules, and a row break
outside an environment. -/
def silentCommands : List String := [
  ",", ";", ":", "!", " ", "\\", "displaystyle", "textstyle", "scriptstyle", "limits", "nolimits",
  "hline"]

/-- Commands that may stand between a big operator and its limits. -/
def limitModifiers : List String := ["limits", "nolimits"]

/-- The command that ends a row. -/
def rowBreakName : String := "\\"

/-- Environments whose opening is followed by a column specification. -/
def columnSpecEnvironments : List String := ["array", "tabular"]

/-- What a command does in the grammar. -/
inductive Role where
  /-- A fraction of the two arguments that follow. -/
  | fraction
  /-- A root, with an optional degree in brackets. -/
  | root
  /-- The next token is a delimiter. -/
  | delimiter
  | beginEnvironment
  | endEnvironment
  | bigOperator (glyph : Char)
  | symbol (glyph : Char)
  | relation (glyph : Char)
  /-- Stands for its argument. -/
  | font
  /-- Prints nothing. -/
  | silent
  /-- A wide space, kept as one blank. -/
  | wideSpace
  /-- No command of the grammar: its name is text. -/
  | unknown
deriving DecidableEq, Repr

/-- The role of a command, by its name without the backslash. -/
def role (name : String) : Role :=
  if ["frac", "dfrac", "tfrac"].contains name then .fraction
  else if name = "sqrt" then .root
  else if ["left", "right"].contains name then .delimiter
  else if name = "begin" then .beginEnvironment
  else if name = "end" then .endEnvironment
  else if let some glyph := bigOperators.lookup name then .bigOperator glyph
  else if let some glyph := symbols.lookup name then .symbol glyph
  else if let some glyph := relations.lookup name then .relation glyph
  else if fontCommands.contains name then .font
  else if silentCommands.contains name then .silent
  else if ["quad", "qquad"].contains name then .wideSpace
  else .unknown

end OfficeFormula.Latex
