import SwaggerLift.Command.Arguments
/-!
What the program says about itself: its name and version, its usage, and completions for shells.
-/

namespace SwaggerLift

def programName : String := "s2o"

def programVersion : String := "0.1.0"

def versionText : String := s!"{programName} {programVersion}\n"

def helpText : String :=
  "Swagger 2.0 to OpenAPI 3.0.3 converter\n\n" ++
  s!"Usage: {programName} [OPTIONS] COMMAND\n\n" ++
  "Commands:\n" ++
  "  convert [-i FILE] [-o FILE] [--format yaml|json]  Convert a Swagger 2.0 document\n" ++
  "  validate -i FILE                                  Check that a document converts cleanly\n" ++
  "  init [--force]                                    Write a settings file\n" ++
  "  completions SHELL                                 Write completions for a shell\n" ++
  "  help [COMMAND]                                    Print this message\n\n" ++
  "Options:\n" ++
  "  -h, --help     Print this message\n" ++
  "  -V, --version  Print the version\n"

def usageText : String :=
  s!"error: unexpected or missing arguments\n\nFor more information, try '{programName} --help'.\n"

def firstWords : List String := Verb.all.map Verb.name ++ ["help"]

def Shell.completions (shell : Shell) : String :=
  let words := " ".intercalate firstWords
  let quoted := firstWords.map fun word => s!"'{word}'"
  match shell with
  | bash => s!"complete -W '{words}' {programName}\n"
  | fish => s!"complete -c {programName} -f -a '{words}'\n"
  | zsh => s!"#compdef {programName}\ncompadd {words}\n"
  | elvish =>
      s!"set edit:completion:arg-completer[{programName}] = \x7b|@words| put {words} \x7d\n"
  | powershell =>
      s!"Register-ArgumentCompleter -Native -CommandName {programName} -ScriptBlock \x7b " ++
        ", ".intercalate quoted ++ " \x7d\n"

end SwaggerLift
