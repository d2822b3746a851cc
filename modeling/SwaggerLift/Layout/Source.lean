import SwaggerLift.Layout.Buffer
/-!
Sources: what a typed reader asks of a text format. A source hands out one value at a time, at a
place of the document; opening a list or a mapping gives the places inside it. Reading goes from
left to right, so the first thing that is wrong is the one reported.
-/

namespace SwaggerLift

/-- A list that has been opened. `close` is asked when no more items are wanted or none are left,
    and is told how many were read. -/
structure Items (κ : Type) (m : Type → Type) where
  items : List κ
  close : Nat → m Unit

structure Entries (κ : Type) (m : Type → Type) where
  entries : List (κ × κ)
  close : m Unit

/-- A record is written as a mapping of its members or as the list of its fields in order. -/
inductive Form (κ : Type) (m : Type → Type) where
  | named (entries : Entries κ m)
  | positional (items : Items κ m)

/-- A key of a record names a field, or counts to one. -/
inductive Label where
  | name (s : String)
  | position (n : Whole)

def Label.picks (name : String) (index : Nat) : Label → Bool
  | .name s => s == name
  | .position n => n.val == (index : Int)

class Source (κ : Type) (m : outParam (Type → Type)) [Monad m] [Refusing m] where
  /-- Gives a place to what is refused inside and has none yet. -/
  within : {α : Type} → κ → m α → m α
  text : Wanted → κ → m String
  flag : κ → m Bool
  label : κ → m Label
  /-- A name from a fixed set: hands it on, then looks at what stands beside it. -/
  variant : {α : Type} → (String → m α) → κ → m α
  verbatim : κ → m Verbatim
  buffer : Wanted → κ → m Buffer
  /-- Passes over a value that nobody wants. -/
  skip : κ → m Unit
  /-- The place itself, if there is more than null. -/
  present : κ → m (Option κ)
  list : κ → m (Items κ m)
  mapping : Wanted → κ → m (Entries κ m)
  record : String → κ → m (Form κ m)
  union : String → κ → m (Form κ m)

namespace Buffer

def opened (items : List Buffer) : Items Buffer (Except Mismatch) where
  -- All items of a buffered list have to be read.
  items := items
  close taken := if taken < items.length then .error (.tooLong items.length taken) else .ok ()

def entered (entries : List (Buffer × Buffer)) : Entries Buffer (Except Mismatch) where
  entries := entries
  close := .ok ()

/-- A whole number that is not negative counts fields. -/
def readLabel : Buffer → Except Mismatch Label
  | .text s => .ok (.name s)
  | .whole n =>
      if 0 ≤ n.val then .ok (.position n) else .error (.wrongType (.whole n.val) .fieldName)
  | other => .error (.wrongType other.found .fieldName)

def readForm (wanted : Wanted) : Buffer → Except Mismatch (Form Buffer (Except Mismatch))
  | .list items => .ok (.positional (opened items))
  | .mapping entries => .ok (.named (entered entries))
  | other => .error (.wrongType other.found wanted)

end Buffer

/-- Buffered content is itself a source. It has no places to report. -/
instance : Source Buffer (Except Mismatch) where
  within _ act := act
  text := Buffer.readText
  flag
    | .flag b => .ok b
    | other => .error (.wrongType other.found .flag)
  label := Buffer.readLabel
  variant pick b := do pick (← b.readText .variantName)
  verbatim := Buffer.readVerbatim
  buffer _ b := .ok b
  skip _ := .ok ()
  present
    | .null => .ok none
    | other => .ok (some other)
  list
    | .list items => .ok (Buffer.opened items)
    | other => .error (.wrongType other.found .list)
  mapping wanted
    | .mapping entries => .ok (Buffer.entered entries)
    | other => .error (.wrongType other.found wanted)
  record title := Buffer.readForm (.record title)
  union title := Buffer.readForm (.union title)

end SwaggerLift
