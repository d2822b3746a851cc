import SwaggerLift.Format
/-!
What the program can be asked to do.
-/

namespace SwaggerLift

inductive Shell where
  | bash
  | elvish
  | fish
  | powershell
  | zsh
  deriving DecidableEq, Repr

def Shell.name : Shell → String
  | bash => "bash"
  | elvish => "elvish"
  | fish => "fish"
  | powershell => "powershell"
  | zsh => "zsh"

def Shell.all : List Shell := [.bash, .elvish, .fish, .powershell, .zsh]

/-- Work on files. What a conversion is not told, the settings say. -/
inductive Command where
  | convert (input output : Option String) (format : Option Format)
  | validate (input : String)
  | init (force : Bool)
  | completions (shell : Shell)
  deriving DecidableEq, Repr

inductive Request where
  | command (work : Command)
  | help
  | version
  deriving DecidableEq, Repr

end SwaggerLift
