import OfficeFormula.CommandLine.Run
import OfficeFormula.Markdown.Source
import OfficeFormula.Report.Print

/-!
# The program

Runs the command on the files and the standard streams of the system. Messages go to standard error.
-/

namespace OfficeFormula

open CommandLine (Platform Status WriteFailure)

/-- What the system says about a file that cannot be written. -/
def writeFailure : IO.Error → WriteFailure
  | .noFileOrDirectory _ number details | .inappropriateType _ number details
  | .permissionDenied _ number details | .invalidArgument _ number details
  | .resourceExhausted _ number details | .alreadyExists _ number details =>
    ⟨number.toNat, details.toList⟩
  | e => ⟨0, e.toString.toList⟩

/-- What a path names on the system. -/
def systemStatus (path : Text) : IO Status := do
  let place := (← IO.currentDir) / String.ofList path
  if path = [] then return .missing
  else if ← place.isDir then return .directory true
  else if ← place.pathExists then return .file true true
  else return .missing

/-- Writes a file of the system. -/
def systemWrite (path content : Text) : IO (Option WriteFailure) := do
  try
    IO.FS.writeFile (String.ofList path) (String.ofList content)
    return none
  catch e => return some (writeFailure e)

/-- The system that the program runs on. -/
def system : Platform IO where
  currentDirectory := do return (← IO.currentDir).toString.toList
  status := systemStatus
  read path := do
    return Markdown.uniformLineEnds (← IO.FS.readFile (String.ofList path)).toList
  readStandard := do return (← (← IO.getStdin).readToEnd).toList
  print t := do (← IO.getStdout).putStr (String.ofList t)
  write := systemWrite

/-- How wide messages are printed. -/
def columns : Int := 80

/-- Prints messages. -/
def tell (stream : IO.FS.Stream) (messages : List Report.Message) : IO Unit := do
  for message in messages do
    for text in message.print? columns do
      stream.putStr (String.ofList text)

/-- Runs the command, tells its messages, and gives the exit status. -/
def runProgram (arguments : List Text) : IO UInt32 := do
  let outcome ← CommandLine.run system .tireless arguments
  let errors ← IO.getStderr
  match outcome with
  | .stopped complaint =>
    for text in complaint do
      errors.putStrLn (String.ofList text)
  | .finished _ messages => tell errors messages
  | .failed reason messages =>
    tell errors messages
    errors.putStrLn reason.text
  return outcome.exit.toUInt32

end OfficeFormula

def main (arguments : List String) : IO UInt32 :=
  OfficeFormula.runProgram (arguments.map String.toList)
