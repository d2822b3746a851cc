import SwaggerLift.Path
/-!
Files as the commands use them. Commands are written over any monad with these operations, so one
text of them runs on the files of a machine and on stores that are plain values.
-/

namespace SwaggerLift

inductive FileProblem where
  | missing
  | taken
  | notDirectory
  | isDirectory
  | nameTooLong
  | zeroInName
  | notText
  | other (text : String)
  deriving DecidableEq

def FileProblem.message : FileProblem → String
  | missing => "No such file or directory (os error 2)"
  | taken => "File exists (os error 17)"
  | notDirectory => "Not a directory (os error 20)"
  | isDirectory => "Is a directory (os error 21)"
  | nameTooLong => "File name too long (os error 36)"
  | zeroInName => "file name contained an unexpected NUL byte"
  | notText => "stream did not contain valid UTF-8"
  | other text => text

class Files (m : Type → Type) where
  exists? : String → m Bool
  isDirectory : String → m Bool
  read : String → m (Except FileProblem String)
  write : String → String → m (Except FileProblem Unit)
  /-- Makes one directory, in one that exists. -/
  makeDirectory : String → m (Except FileProblem Unit)

namespace Files

variable {m : Type → Type} [Monad m] [Files m]

/-- A directory that could not be made is as good as made if it is there. -/
def settle (path : String) : Except FileProblem Unit → m (Except FileProblem Unit)
  | .ok () => return .ok ()
  | .error problem => do
      if ← isDirectory path then return .ok () else return .error problem

/-- Makes the first of the directories, after as many of the others as are missing.
    Each stands in the next. -/
def makeRow : List String → m (Except FileProblem Unit)
  | [] => return .ok ()
  | path :: above => do
      match ← makeDirectory path with
      | .error .missing =>
          match ← makeRow above with
          | .ok () => settle path (← makeDirectory path)
          | .error problem => return .error problem
      | made => settle path made

def makeDirectories (path : String) : m (Except FileProblem Unit) := makeRow (Path.row path)

end Files

end SwaggerLift
