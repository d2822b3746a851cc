import SwaggerLift.Command.Basic
/-!
Arguments: the words after the program's name, read as a request. Words are taken from left to
right; the first one that does not fit makes the whole row no request, unless help was asked for
before it. An option is given at most once; `--input x`, `--input=x`, `-i x`, `-ix` and `-i=x` say
the same. After a word of two dashes no word is an option.
-/

namespace SwaggerLift

inductive Verb where
  | convert
  | validate
  | init
  | completions
  deriving DecidableEq, Repr

inductive Switch where
  | input
  | output
  | format
  | force
  | help
  deriving DecidableEq, Repr

def Switch.long : Switch → String
  | input => "input"
  | output => "output"
  | format => "format"
  | force => "force"
  | help => "help"

def Switch.short? : Switch → Option Char
  | input => some 'i'
  | output => some 'o'
  | help => some 'h'
  | format | force => none

namespace Verb

def name : Verb → String
  | convert => "convert"
  | validate => "validate"
  | init => "init"
  | completions => "completions"

def all : List Verb := [convert, validate, init, completions]

def ofName? (word : String) : Option Verb := all.find? (·.name == word)

def switches : Verb → List Switch
  | convert => [.input, .output, .format, .help]
  | validate => [.input, .help]
  | init => [.force, .help]
  | completions => [.help]

def long? (verb : Verb) (name : List Char) : Option Switch :=
  verb.switches.find? (·.long.toList == name)

def short? (verb : Verb) (letter : Char) : Option Switch :=
  verb.switches.find? (·.short? == some letter)

end Verb

structure Draft where
  input : Option String
  output : Option String
  format : Option Format
  force : Bool
  shell : Option Shell

inductive Step where
  | refuse
  | help
  | next (draft : Draft)
  | await (set : String → Option Draft)

namespace Step

def ofDraft? : Option Draft → Step
  | some draft => next draft
  | none => refuse

def give (value : String) : Step → Step
  | await set => ofDraft? (set value)
  | _ => refuse

end Step

namespace Draft

def blank : Draft := ⟨none, none, none, false, none⟩

/-- A path that is not given twice and not empty. -/
def once (before : Option String) (path : String) : Option String :=
  if before.isSome || path.isEmpty then none else some path

def setInput (draft : Draft) (path : String) : Option Draft := do
  return { draft with input := ← once draft.input path }

def setOutput (draft : Draft) (path : String) : Option Draft := do
  return { draft with output := ← once draft.output path }

def setFormat (draft : Draft) (name : String) : Option Draft :=
  match draft.format with
  | some _ => none
  | none => do return { draft with format := ← Format.naming.options.lookup name }

def setForce (draft : Draft) : Option Draft :=
  if draft.force then none else some { draft with force := true }

def setShell (draft : Draft) (name : String) : Option Draft :=
  match draft.shell with
  | some _ => none
  | none => do return { draft with shell := ← Shell.all.find? (·.name == name) }

def switch (draft : Draft) : Switch → Step
  | .input => .await draft.setInput
  | .output => .await draft.setOutput
  | .format => .await draft.setFormat
  | .force => .ofDraft? draft.setForce
  | .help => .help

/-- A word that is no option: only completions take one. -/
def operand (draft : Draft) (verb : Verb) (word : String) : Option Draft :=
  match verb with
  | .completions => draft.setShell word
  | _ => none

def command (draft : Draft) : Verb → Option Command
  | .convert => some (.convert draft.input draft.output draft.format)
  | .validate => draft.input.map .validate
  | .init => some (.init draft.force)
  | .completions => draft.shell.map .completions

def long (draft : Draft) (verb : Verb) (text : List Char) : Step :=
  match verb.long? (text.takeWhile (· != '=')) with
  | none => .refuse
  | some switch => match text.dropWhile (· != '=') with
    | [] => draft.switch switch
    | _ :: value => (draft.switch switch).give (String.ofList value)

def row (draft : Draft) (verb : Verb) : List Char → Step
  -- The first that takes a value has the rest of the row for it, behind an equals sign or not.
  | [] => .next draft
  | letter :: rest =>
      match (verb.short? letter).map draft.switch with
      | none => .refuse
      | some (.next changed) => row changed verb rest
      | some (.await set) => match rest with
        | [] => .await set
        | '=' :: value => .ofDraft? (set (String.ofList value))
        | value => .ofDraft? (set (String.ofList value))
      | some step => step

def word (draft : Draft) (verb : Verb) (text : String) : Step :=
  match text.toList with
  | '-' :: '-' :: name => draft.long verb name
  | '-' :: letter :: rest => draft.row verb (letter :: rest)
  | _ => .ofDraft? (draft.operand verb text)

def operands (draft : Draft) (verb : Verb) : List String → Option Request
  | [] => (draft.command verb).map .command
  | text :: rest => (draft.operand verb text).bind fun changed => operands changed verb rest

def isValue (text : String) : Bool :=
  -- A value may be a dash, but does not begin with one.
  match text.toList with
  | '-' :: _ :: _ => false
  | _ => true

def words (draft : Draft) (verb : Verb) : List String → Option Request
  | [] => (draft.command verb).map .command
  | "--" :: rest => draft.operands verb rest
  | text :: rest =>
      match draft.word verb text with
      | .refuse => none
      | .help => some .help
      | .next changed => words changed verb rest
      | .await set => match rest with
        | [] => none
        | value :: rest =>
            if isValue value then (set value).bind fun changed => words changed verb rest else none

end Draft

namespace Request

def helpOn : List String → Option Request
  | [] => some help
  | [name] => if name = "help" || (Verb.ofName? name).isSome then some help else none
  | _ => none

def front (text : List Char) : Option Request :=
  -- The first of them decides.
  if text = ['-', '-', 'h', 'e', 'l', 'p'] then some help
  else if text = ['-', '-', 'v', 'e', 'r', 's', 'i', 'o', 'n'] then some version
  else match text with
    | '-' :: 'h' :: _ => some help
    | '-' :: 'V' :: _ => some version
    | _ => none

def ofWords? : List String → Option Request
  | [] => none
  | first :: rest =>
      if first = "help" then helpOn rest
      else match Verb.ofName? first with
        | some verb => Draft.blank.words verb rest
        | none => front first.toList

end Request

end SwaggerLift
