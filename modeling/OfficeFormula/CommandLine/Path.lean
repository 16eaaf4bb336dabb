import OfficeFormula.Text.Blank

/-!
# Paths

A path names a file from the root or from the current directory. `absolute` gives the path from the
root without empty parts, single dots and, as far as that can be seen from the path itself, double
dots.
-/

namespace OfficeFormula.CommandLine

/-- The parts of a path that are not empty. -/
def parts (path : Text) : List Text := path.wordsBy (· = '/')

/-- The parts passed so far, the last one first, and one more part. -/
def pushPart (passed : List Text) (part : Text) : List Text :=
  if part = ['.'] then passed
  else if part = ['.', '.'] then passed.drop 1
  else part :: passed

/-- The parts without the dots among them. -/
def plainParts (ps : List Text) : List Text := (ps.foldl pushPart []).reverse

/-- The slashes that a path from the root begins with: two if it was written with exactly two. -/
def rootSlashes (path : Text) : Text :=
  if (path.takeWhile (· = '/')).length = 2 then ['/', '/'] else ['/']

/-- A path as it is seen from the root. -/
def fromRoot (currentDirectory path : Text) : Text :=
  if path.head? = some '/' then path
  else if currentDirectory.getLast? = some '/' then currentDirectory ++ path
  else currentDirectory ++ '/' :: path

/-- The path from the root. -/
def absolute (currentDirectory path : Text) : Text :=
  let full := fromRoot currentDirectory path
  rootSlashes full ++ Text.join ['/'] (plainParts (parts full))

/-- What stands before the last `c` in a text that has it. -/
def beforeLast? (c : Char) (t : Text) : Option Text :=
  match t.reverse.dropWhile (· ≠ c) with
  | [] => none
  | _ :: before => some before.reverse

/-- The directory of a path from the root. -/
def directoryOf (path : Text) : Text :=
  let before := (beforeLast? '/' path).getD []
  if before.all (· = '/') then before ++ ['/'] else before

/-- The path of the file that an input is converted to, if no other one is asked for: the absolute
path with `.html` in place of what follows the last period in it. -/
def defaultTarget (currentDirectory input : Text) : Text :=
  let path := absolute currentDirectory input
  (beforeLast? '.' path).getD path ++ ".html".toList

end OfficeFormula.CommandLine
