import SwaggerLift.Command.Run
/-!
The program: requests run on the files of the machine.
-/

namespace SwaggerLift

def machineError : IO.Error → UInt32 × String
  | .alreadyExists _ code text | .otherError code text | .resourceBusy code text
  | .resourceVanished code text | .unsupportedOperation code text | .hardwareFault code text
  | .unsatisfiedConstraints code text | .illegalOperation code text | .protocolError code text
  | .timeExpired code text | .interrupted _ code text | .noFileOrDirectory _ code text
  | .invalidArgument _ code text | .permissionDenied _ code text | .resourceExhausted _ code text
  | .inappropriateType _ code text | .noSuchThing _ code text => (code, text)
  | .unexpectedEof => (0, "unexpected end of file")
  | .userError text => (0, text)

def FileProblem.ofError (error : IO.Error) : FileProblem :=
  let (code, text) := machineError error
  match code with
  | 2 => .missing
  | 17 => .taken
  | 20 => .notDirectory
  | 21 => .isDirectory
  | 36 => .nameTooLong
  | code => .other s!"{text} (os error {code})"

/-- Runs an operation on a path that can be a path at all. -/
def onPath {α : Type} (path : String) (act : IO α) : IO (Except FileProblem α) :=
  if path.toList.any (fun c => c.toNat == 0) then return .error .zeroInName
  else do
    match ← act.toBaseIO with
    | .ok a => return .ok a
    | .error error => return .error (.ofError error)

instance : Files IO where
  exists? path := do
    match ← onPath path (IO.FS.Handle.mk path .read) with
    | .ok _ => return true
    | .error (.other _) => return true
    | .error _ => return false
  isDirectory path := do
    match ← onPath path (do (← IO.FS.Handle.mk path .read).read 1) with
    | .error .isDirectory => return true
    | _ => return false
  read path := do
    match ← onPath path (do (← IO.FS.Handle.mk path .read).readBinToEnd) with
    | .ok bytes => match String.fromUTF8? bytes with
      | some text => return .ok text
      | none => return .error .notText
    | .error problem => return .error problem
  write path text := onPath path (IO.FS.writeFile path text)
  makeDirectory path := onPath path (IO.FS.createDir path)

end SwaggerLift

def main (words : List String) : IO UInt32 := do
  let outcome : SwaggerLift.Outcome ← SwaggerLift.runWords words
  (← IO.getStdout).putStr outcome.stdout
  (← IO.getStderr).putStr outcome.stderr
  return outcome.code.toUInt32
