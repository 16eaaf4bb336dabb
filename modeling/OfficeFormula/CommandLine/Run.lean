import OfficeFormula.CommandLine.Options
import OfficeFormula.CommandLine.Path
import OfficeFormula.Content

/-!
# The command

`run` does what the command line asks for. It meets files and standard input and output only through
a `Platform`, so it runs in any monad that has one.
-/

namespace OfficeFormula.CommandLine

open Report (Message)

/-- What a path names. -/
inductive Status where
  | missing
  | file (readable writable : Bool)
  | directory (writable : Bool)
deriving DecidableEq, Repr

/-- A file can be put there: into a directory, or over a file. -/
def Status.isWritable : Status → Bool
  | missing => false
  | file _ writable | directory writable => writable

/-- Why a file cannot be written: the number and the name that the system has for it. -/
structure WriteFailure where
  number : Nat
  name : Text

/-- What is said about a file that cannot be written. -/
def WriteFailure.text (f : WriteFailure) (path : Text) : Text :=
  "[Errno ".toList ++ Nat.toDigits 10 f.number ++ "] ".toList ++ f.name ++ ": ".toList
    ++ path.quoted

/-- The surroundings in which the command runs. -/
structure Platform (m : Type → Type) where
  currentDirectory : m Text
  status : (path : Text) → m Status
  /-- The content of a file that can be read, line ends made uniform. -/
  read : (path : Text) → m Text
  readStandard : m Text
  print : Text → m Unit
  write : (path content : Text) → m (Option WriteFailure)

/-- How the command has ended. -/
inductive Outcome where
  /-- The command line has ended it, with a complaint if it was at fault. -/
  | stopped (complaint : Option Text)
  | finished (succeeded : Bool) (messages : List Message)
  /-- The input was a document that cannot be read. -/
  | failed (reason : Markup.Html.Unreadable) (messages : List Message)

/-- The exit status. -/
def Outcome.exit : Outcome → Nat
  | stopped none => 0
  | stopped (some _) => 2
  | finished succeeded _ => if succeeded then 0 else 1
  | failed _ _ => 1

/-- Where messages about files come from. -/
def location : Text := "mpaste".toList

/-- An error about files. -/
def fileError (text : Text) : Message := Report.error location text

/-- A path as messages show it. -/
def inQuotes (path : Text) : Text := '"' :: path ++ ['"']

/-- What `--version` prints. -/
def versionText : Text := "mathpaste 0.1\n".toList

/-- What `--help` prints. -/
def helpText : Text :=
  "usage: mpaste [-h] [-v] [-o OUTPUT.html] [--preview] [--fragment] [--html]
              [--latex-engine \x7bnative,mathml\x7d] [--no-soft-parens] [-x LATEX]
              [--display]
              [INPUT.md]
".toList

/-- What is wrong with an input, if it cannot be read. -/
def inputError? (path : Text) : Status → Option Message
  | .missing => some (fileError (inQuotes path ++ " not found".toList))
  | .directory _ => some (fileError (inQuotes path ++ " is not a file".toList))
  | .file readable _ =>
    if readable then none else some (fileError (inQuotes path ++ " is not readable".toList))

/-- The error about a place that nothing can be written to. -/
def notWritable (path : Text) : Message :=
  fileError ("cannot write output: ".toList ++ inQuotes path ++ " is not writable".toList)

/-- The settings that the options ask for. -/
def Options.settings (o : Options) (host : Host) : Settings :=
  ⟨!o.preview, o.engine, !o.noSoftParentheses, host⟩

/-- What a source becomes. -/
def convertSource (o : Options) (settings : Settings) (source : Text) : Attempt Text := do
  let html ←
    if o.html then
      if settings.forClipboard then Rendered.convertPage settings source else pure source
    else Markdown.convert settings settings.engine.name source
  return if o.fragment || o.preview then html else Content.wrapDocument html

/-- A text with a newline at its end. -/
def endLine (t : Text) : Text := if t.getLast? = some '\n' then t else t ++ ['\n']

/-- The path that the result goes to. -/
def targetOf (o : Options) (currentDirectory : Text) : Text :=
  match o.output with
  | some (c :: cs) => c :: cs
  | _ => if o.input = standard then standard else defaultTarget currentDirectory o.input

/-- The result would replace the input. -/
def overwritesInput (o : Options) (currentDirectory : Text) : Bool :=
  let target := targetOf o currentDirectory
  o.input ≠ standard && target ≠ standard
    && absolute currentDirectory target = absolute currentDirectory o.input

variable {m : Type → Type} [Monad m]

/-- The source, or why it cannot be read. -/
def readSource (p : Platform m) (path : Text) : m (Except Message Text) := do
  if path = standard then return .ok (← p.readStandard)
  else
    match inputError? path (← p.status path) with
    | some e => return .error e
    | none => return .ok (← p.read path)

/-- Why the target cannot be written, as far as that can be seen beforehand. -/
def targetError? (p : Platform m) (currentDirectory path : Text) : m (Option Message) := do
  if path = standard then return none
  else
    match ← p.status path with
    | .directory _ => return some (notWritable path)
    | .file _ writable => return if writable then none else some (notWritable path)
    | .missing =>
      let directory := directoryOf (absolute currentDirectory path)
      return if (← p.status directory).isWritable then none else some (notWritable directory)

/-- Writes the result; gives an error if that fails. -/
def writeTarget (p : Platform m) (path content : Text) : m (Option Message) := do
  if path = standard then
    p.print (endLine content)
    return none
  else
    match ← p.write path content with
    | none => return none
    | some f => return some (fileError ("cannot write output: ".toList ++ f.text path))

/-- Prints the markup of one formula. -/
def runFormula (p : Platform m) (settings : Settings) (source : Text) (display : Bool) :
    m Outcome := do
  let compiled := settings.compileLatex source display
  p.print (endLine compiled.value)
  return .finished (Report.Journal.ofMessages compiled.messages).errors.isEmpty compiled.messages

/-- Converts the input. -/
def runConversion (p : Platform m) (o : Options) (settings : Settings) : m Outcome := do
  let currentDirectory ← p.currentDirectory
  let target := targetOf o currentDirectory
  let source ← readSource p o.input
  let sourceErrors := match source with
    | .ok _ => []
    | .error e => [e]
  let errors := sourceErrors ++ (← targetError? p currentDirectory target).toList
    ++ (if overwritesInput o currentDirectory then
        [fileError ("output would overwrite input ".toList ++ inQuotes o.input)]
      else [])
  match source, errors with
  | .ok source, [] =>
    let converted := (convertSource o settings source).run
    match converted.value with
    | .error reason => return .failed reason converted.messages
    | .ok html =>
      let failure ← writeTarget p target html
      return .finished failure.isNone (converted.messages ++ failure.toList)
  | _, errors => return .finished false errors

/-- Does what the arguments ask for. -/
def run (p : Platform m) (host : Host) (arguments : List Text) : m Outcome := do
  match readOptions arguments with
  | .error .version =>
    p.print versionText
    return .stopped none
  | .error .help =>
    p.print helpText
    return .stopped none
  | .error (.mistake e) => return .stopped (some ("mpaste: error: ".toList ++ e.text))
  | .ok o =>
    match o.latex with
    | some source => runFormula p (o.settings host) source o.display
    | none => runConversion p o (o.settings host)

end OfficeFormula.CommandLine
