import OfficeFormula.Text.Blank

/-!
# Office Math Markup

The tree of a formula as a word processor stores it, and the constructors for each kind of
structure. Tags and attribute names carry the prefix of their namespace.

An argument of a structure is a list of nodes. Where leaving an argument out differs from giving an
empty one (the scripts of `scripts` and the limits of `nary`) it is an `Option`.
-/

namespace OfficeFormula.Omml

inductive Node where
  | element (tag : String) (attrs : List (String × Text)) (children : List Node)
  | text (t : Text)

namespace Node

mutual

/-- All the text in the tree, in order. -/
def textContent : Node → Text
  | element _ _ children => textContentAll children
  | text t => t

def textContentAll : List Node → Text
  | [] => []
  | n :: ns => n.textContent ++ textContentAll ns

end

end Node

/-- An element of the formula namespace. -/
def element (tag : String) (content : List Node) : Node := .element ("m:" ++ tag) [] content

/-- A property: an element whose value is an attribute. -/
def property (tag : String) (value : Text) : Node :=
  .element ("m:" ++ tag) [("m:val", value)] []

/-- The text of a run. Blanks at its ends are kept by a mark. -/
def runText (t : Text) : Node :=
  .element "m:t" (if t = t.trim then [] else [("xml:space", "preserve".toList)])
    (if t = [] then [] else [.text t])

/-- A run of text, upright if `plain`. -/
def run (t : Text) (plain : Bool) : Node :=
  .element "m:r" [] ((if plain then [element "rPr" [property "sty" ['p']]] else []) ++ [runText t])

/-- A whole formula. -/
def formula (content : List Node) : Node := element "oMath" content

def fraction (num den : List Node) : Node := element "f" [element "num" num, element "den" den]

/-- A root; `hideDegree` makes it a square root. -/
def radical (base degree : List Node) (hideDegree : Bool) : Node :=
  element "rad" ((if hideDegree then [element "radPr" [property "degHide" ['1']]] else []) ++
    [element "deg" degree, element "e" base])

/-- A base with the scripts that are given. With none it is the base alone. -/
def scripts (base : List Node) (sub sup : Option (List Node)) : Node :=
  let e := element "e" base
  match sub, sup with
  | some sub, some sup => element "sSubSup" [e, element "sub" sub, element "sup" sup]
  | some sub, none => element "sSub" [e, element "sub" sub]
  | none, some sup => element "sSup" [e, element "sup" sup]
  | none, none => e

/-- The properties of a big operator: its glyph, the place of its limits, and which are hidden. -/
def naryProperties (glyph : Text) (sub sup : Option (List Node)) (limits : Option Text) : Node :=
  element "naryPr" ([property "chr" glyph]
    ++ (match limits with
      | some place => if place = [] then [] else [property "limLoc" place]
      | none => [])
    ++ (if sub.isNone then [property "subHide" ['1']] else [])
    ++ (if sup.isNone then [property "supHide" ['1']] else []))

/-- A big operator over `body`. -/
def nary (glyph : Text) (sub sup : Option (List Node)) (body : List Node)
    (limits : Option Text) : Node :=
  element "nary" [naryProperties glyph sub sup limits,
    element "sub" (sub.getD []), element "sup" (sup.getD []), element "e" body]

/-- Something set below a base. -/
def lowerLimit (base limit : List Node) : Node :=
  element "limLow" [element "e" base, element "lim" limit]

/-- Something set above a base. -/
def upperLimit (base limit : List Node) : Node :=
  element "limUpp" [element "e" base, element "lim" limit]

def accent (base : List Node) (glyph : Text) : Node :=
  element "acc" [element "accPr" [property "chr" glyph], element "e" base]

def matrix (rows : List (List (List Node))) : Node :=
  element "m" (rows.map fun row => element "mr" (row.map (element "e")))

/-- Equations stacked, one on each row. -/
def equationArray (rows : List (List Node)) : Node := element "eqArr" (rows.map (element "e"))

end OfficeFormula.Omml
