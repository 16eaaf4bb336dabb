import OfficeFormula.Text.Blank

/-!
# Messages

Conversion always gives a result, if a degraded one. What went wrong on the way is told in
messages: where, what, and optionally details such as the text that was at fault.
-/

namespace OfficeFormula.Report

/-- A block of text below a message. -/
structure Detail where
  title : Text
  content : Text
  /-- Whether the lines are numbered. -/
  lineNumbers : Bool
  /-- How many numbered lines around a highlighted one are shown; all of them if `none`. -/
  contextLines : Option Int
  /-- The numbers of the lines that stand out. -/
  highlighted : List Int

/-- A block of text shown in full. -/
def Detail.plain (title content : Text) : Detail := ⟨title, content, false, none, []⟩

inductive Severity where
  | plain
  | progress
  | warning
  | error
deriving DecidableEq, Repr

namespace Severity

/-- What stands before the location of a message. -/
def tag : Severity → Text
  | plain | progress => []
  | warning => "[!] ".toList
  | error => "[!!] ".toList

/-- The colour of the location on a terminal. -/
def locationColour : Severity → Text
  | plain => []
  | progress => "\x1b[32m".toList
  | warning => "\x1b[33;1m".toList
  | error => "\x1b[31;1m".toList

/-- The colour of the text on a terminal. -/
def textColour : Severity → Text
  | plain | progress => []
  | warning | error => "\x1b[37;1m".toList

end Severity

structure Message where
  severity : Severity
  location : Text
  text : Text
  details : List Detail

namespace Message

/-- The message on one line. -/
def line (m : Message) : Text := m.severity.tag ++ m.location ++ ": ".toList ++ m.text

/-- The message as a comment of a document. -/
def comment (m : Message) : Text := "<!-- ".toList ++ m.line ++ " -->".toList

end Message

/-- A warning at `location`. -/
def warning (location text : Text) : Message := ⟨.warning, location, text, []⟩

/-- The cause of an error, as it is named and described. -/
structure Cause where
  name : Text
  description : Text

/-- A cause after the message it belongs to, if there is one. -/
def Cause.describe (cause : Cause) (text : Text) : Text :=
  let own := cause.description ++ " (".toList ++ cause.name ++ [')']
  if text = [] then own else text ++ ": ".toList ++ own

/-- A cause on a line of its own. -/
def Cause.trace (cause : Cause) : Text :=
  cause.name ++ (if cause.description = [] then [] else ": ".toList ++ cause.description) ++ ['\n']

/-- What an error message is made from. -/
structure ErrorReport where
  location : Text
  /-- May be empty. -/
  text : Text
  cause : Option Cause
  /-- Whether the cause is shown as a detail too. -/
  showTrace : Bool
  /-- What the failing step printed; may be empty. -/
  output : Text
  /-- The text at fault; may be empty. -/
  code : Text
  highlighted : List Int
  contextLines : Option Int

/-- How many lines around a highlighted one an error shows. -/
def defaultContextLines : Option Int := some 6

namespace ErrorReport

/-- The text of the message: the given one, its cause, or the bare word. -/
def messageText (r : ErrorReport) : Text :=
  match r.cause with
  | some cause => cause.describe r.text
  | none => if r.text = [] then "error".toList else r.text

/-- The cause, the output and the code, as far as they are given. -/
def details (r : ErrorReport) : List Detail :=
  (match r.cause with
    | some cause => if r.showTrace then [Detail.plain "Traceback".toList cause.trace] else []
    | none => [])
  ++ (if r.output = [] then [] else [Detail.plain "Output".toList r.output])
  ++ (if r.code = [] then []
    else [⟨"Code".toList, r.code, true, r.contextLines, r.highlighted⟩])

def message (r : ErrorReport) : Message := ⟨.error, r.location, r.messageText, r.details⟩

end ErrorReport

/-- An error with nothing but its text. -/
def error (location text : Text) : Message :=
  ErrorReport.message ⟨location, text, none, true, [], [], [], defaultContextLines⟩

/-- An error with a cause, found while `code` was converted. -/
def failure (location : Text) (cause : Cause) (code : Text) : Message :=
  ErrorReport.message ⟨location, [], some cause, true, [], code, [], defaultContextLines⟩

/-- Progress at `location`, with advice unless it is empty. -/
def progress (location text advice : Text) : Message :=
  ⟨.progress, location, text, if advice = [] then [] else [Detail.plain "Advice".toList advice]⟩

end OfficeFormula.Report
