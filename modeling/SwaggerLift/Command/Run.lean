import SwaggerLift.Command.Files
import SwaggerLift.Command.Help
import SwaggerLift.Convert.Document
import SwaggerLift.Format.Write
import SwaggerLift.Settings
import SwaggerLift.Swagger.Read
/-!
Running requests over files. A run ends with a code and with what it shows: zero after success, one
after a failure, two if the words were no request. Nothing is written before the whole conversion
has succeeded.
-/

namespace SwaggerLift

inductive SettingsError where
  | unreadable (problem : FileProblem)
  | malformed (fault : ReadFault)

def SettingsError.message : SettingsError → String
  | unreadable problem => s!"failed to read config {Settings.fileName}: {problem.message}"
  | malformed fault => s!"failed to parse config {Settings.fileName}: {fault.message}"

inductive CommandError where
  | settings (error : SettingsError)
  | unreadable (path : String) (problem : FileProblem)
  | document (error : Swagger.ReadError)
  | conversion (error : ConversionError)
  | noDirectory (path : String) (problem : FileProblem)
  | unwritable (path : String) (problem : FileProblem)
  | settingsPresent
  | settingsUnwritable (problem : FileProblem)

namespace CommandError

def message : CommandError → String
  | settings error => error.message
  | unreadable path _ => s!"failed to read {path}"
  | document error => error.message
  | conversion error => error.message
  | noDirectory path _ => s!"failed to create directory {path}"
  | unwritable path _ => s!"failed to write {path}"
  | settingsPresent => s!"{Settings.fileName} already exists. Use --force to overwrite."
  | settingsUnwritable problem => problem.message

def cause? : CommandError → Option FileProblem
  | unreadable _ problem => some problem
  | noDirectory _ problem => some problem
  | unwritable _ problem => some problem
  | _ => none

def report (error : CommandError) : String :=
  match error.cause? with
  | some problem => s!"Error: {error.message}\n\nCaused by:\n    {problem.message}\n"
  | none => s!"Error: {error.message}\n"

end CommandError

structure Outcome where
  code : Nat
  stdout : String
  stderr : String
  deriving DecidableEq

namespace Outcome

def printed (text : String) : Outcome := ⟨0, text, ""⟩

def misused : Outcome := ⟨2, "", usageText⟩

def ofResult : Except CommandError String → Outcome
  | .ok told => ⟨0, "", told⟩
  | .error error => ⟨1, "", error.report⟩

def after (told : String) (outcome : Outcome) : Outcome :=
  { outcome with stderr := told ++ outcome.stderr }

end Outcome

variable {m : Type → Type} [Monad m] [Files m]

def attempt {α : Type} (error : FileProblem → CommandError) (act : m (Except FileProblem α)) :
    ExceptT CommandError m α :=
  ExceptT.mk do return (← act).mapError error

def readSettings : ExceptT CommandError m (Option Settings) := do
  if ← (Files.exists? Settings.fileName : m Bool) then
    let text ← attempt (.settings ∘ .unreadable) (Files.read Settings.fileName)
    match Yaml.read (.record Settings.record) text with
    | .ok settings => return some settings
    | .error fault => throw (.settings (.malformed (.yaml fault)))
  else return none

def readDocument (path : String) : ExceptT CommandError m Swagger.Document := do
  let text ← attempt (.unreadable path) (Files.read path)
  match Swagger.Document.read (.ofPath path) text with
  | .ok document => return document
  | .error error => throw (.document error)

/-- An output path on its own brings its own format with it. -/
def Settings.override (settings : Settings) (output : Option String)
    (format : Option Format) : Settings :=
  let settings := match output with
    | some path => { settings with output := path, format := none }
    | none => settings
  match format with
  | some format => { settings with format := some format }
  | none => settings

def writeOutput (path text : String) : ExceptT CommandError m Unit := do
  match Path.parent? path with
  | some directory => attempt (.noDirectory directory) (Files.makeDirectories directory)
  | none => pure ()
  attempt (.unwritable path) (Files.write path text)

def convertFile (input output : Option String) (format : Option Format) :
    ExceptT CommandError m String := do
  let settings := ((← readSettings).getD .standard).override output format
  let input := input.getD settings.input
  let source ← readDocument input
  match (convert source).result with
  | .error error => throw (.conversion error)
  | .ok document =>
      writeOutput settings.output (document.render settings.outputFormat)
      return s!"Converted {input} → {settings.output} " ++
        s!"({document.paths.size} paths, {document.components.schemas.size} schemas)\n"

def validateDocument (input : String) (source : Swagger.Document) : Outcome :=
  let version := source.version.getD "2.x"
  Outcome.after s!"Valid Swagger {version} document: {input}\n" <|
    match (convert source).result with
    | .error error => .ofResult (.error (.conversion error))
    | .ok document =>
        .ofResult (.ok (s!"  Paths: {document.paths.size}\n" ++
          s!"  Operations: {document.operationCount}\n" ++
          s!"  Schemas: {document.components.schemas.size}\n" ++
          "Validation successful.\n"))

def validateFile (input : String) : m Outcome := do
  match ← (readDocument input).run with
  | .ok source => return validateDocument input source
  | .error error => return .ofResult (.error error)

def initialise (force : Bool) : ExceptT CommandError m String := do
  -- A settings file that is there is kept unless force is used.
  let present ← (Files.exists? Settings.fileName : m Bool)
  if present && !force then throw .settingsPresent
  attempt .settingsUnwritable (Files.write Settings.fileName Settings.template)
  return s!"Created {Settings.fileName}\n"

def Command.run : Command → m Outcome
  | convert input output format => do return .ofResult (← (convertFile input output format).run)
  | validate input => validateFile input
  | init force => do return .ofResult (← (initialise force).run)
  | completions shell => return .printed shell.completions

def Request.run : Request → m Outcome
  | command work => work.run
  | help => return .printed helpText
  | version => return .printed versionText

def runWords (words : List String) : m Outcome :=
  match Request.ofWords? words with
  | some request => request.run
  | none => return .misused

end SwaggerLift
