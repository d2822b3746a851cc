import SwaggerLift.Layout.Basic
import SwaggerLift.Layout.Source
/-!
Reading: a typed value under its layout, from any source. Members are taken in the order of the
text; each is read when it is met, a field that is met twice is refused at once, and only at the end
of a record it shows which fields are missing. The record of a union is kept in a buffer until its
tag is known and is then read from there.
-/

namespace SwaggerLift

open Source

section Rows

variable {m : Type → Type} [Monad m] [Refusing m]

/-- Closes a row: an open field takes the value that its absence means, the first without one is
    missing. -/
def Fields.complete {ρ σ : Type} (fields : Fields ρ σ) (row : σ) : m ρ :=
  match fields, row with
  | .nil, _ => return ()
  | .cons name field rest, (slot, row) => do
      let a ← match slot.or field.absent? with
        | some a => pure a
        | none => refuse (.missingField name)
      return (a, ← rest.complete row)

/-- The row of a record whose list has ended: `index` is the number of its first field. -/
def Fields.beyondEnd {ρ σ : Type} (fields : Fields ρ σ) (title : String)
    (arity index : Nat) : m ρ :=
  match fields with
  | .nil => return ()
  | .cons _ field rest => do
      let a ← match field.beyondEnd? with
        | some a => pure a
        | none => refuse (.tooShort index title arity)
      return (a, ← rest.beyondEnd title arity (index + 1))

end Rows

section Collected

variable {κ : Type} {m : Type → Type} [Monad m] [Refusing m] [Source κ m]

/-- The table of collected members. A key has to be a text, a value content to carry over. -/
def collectedTable : List (Buffer × Buffer) → Except Mismatch (Table Verbatim)
  | collected => do
      let members ← collected.mapM fun entry => do
        return (← entry.1.readText .text, ← entry.2.readVerbatim)
      return .ofList members

def settle {α : Type} : Except Mismatch α → m α
  | .ok a => pure a
  | .error mismatch => refuse mismatch

/-- The tag of a union and all other members, buffered. A tag that is met twice is refused. -/
def readTagged {τ : Type} (tag : String) (readTag : κ → m τ) (title : String) (place : κ) :
    m (τ × Buffer) := do
  match ← union title place with
  | .named opened => do
      let (found, kept) ← opened.entries.foldlM
          (fun (state : Option τ × List (Buffer × Buffer)) entry => do
        match ← buffer (.tagOrAnything tag) entry.1 with
        | .text name =>
            if name = tag then
              match state.1 with
              | some _ => refuse (.duplicateField tag)
              | none => return (some (← readTag entry.2), state.2)
            else return (state.1, state.2 ++ [(.text name, ← buffer .anything entry.2)])
        | key => return (state.1, state.2 ++ [(key, ← buffer .anything entry.2)])) (none, [])
      opened.close
      match found with
      | some found => return (found, .mapping kept)
      | none => refuse (.missingField tag)
  | .positional opened => do
      match opened.items with
      | [] => opened.close 0; refuse (.missingField tag)
      | first :: rest => do
          let found ← readTag first
          let kept ← rest.mapM (buffer .anything)
          opened.close opened.items.length
          return (found, .list kept)

end Collected

mutual

def Layout.read {α : Type} (layout : Layout α) {κ : Type} {m : Type → Type} [Monad m] [Refusing m]
    [Source κ m] (place : κ) : m α :=
  match layout with
  | .text => text .text place
  | .flag => flag place
  | .verbatim => verbatim place
  | .named naming => within place <| variant (fun name =>
      match naming.options.lookup name with
      | some a => pure a
      | none => refuse (.unknownVariant name naming.names)) place
  | .list item => within place do
      let opened ← list place
      let items ← opened.items.mapM fun place => item.read place
      opened.close items.length
      return items
  | .table item => within place do
      let opened ← mapping .mapping place
      let entries ← opened.entries.mapM fun entry => do
        return (← text .text entry.1, ← item.read entry.2)
      opened.close
      return .ofList entries
  | .record record => within place (record.read place)
  | .union title tag variants packing => do
      let (name, content) ← within place <| readTagged tag (fun place => within place do
        let name ← text .variantName place
        if name ∈ variants.names then return name
        else refuse (.unknownVariant name variants.names)) title place
      return packing.pack (← settle (variants.read name content))
termination_by structural layout

def Record.read {α : Type} (record : Record α) {κ : Type} {m : Type → Type} [Monad m] [Refusing m]
    [Source κ m] (place : κ) : m α :=
  match record with
  | .closed title fields packing => do
      match ← Source.record title place with
      | .named opened => do
          let row ← opened.entries.foldlM (fun row entry => do
            match fields.store 0 (← label entry.1) entry.2 row with
            | some stored => stored
            | none => do skip entry.2; return row) fields.blank
          opened.close
          return packing.pack (← fields.complete row)
      | .positional opened => do
          let (row, taken) ← fields.readRow title fields.arity 0 opened.close opened.items
          opened.close taken
          return packing.pack row
  | .extensible title fields packing => do
      let opened ← mapping (.record title) place
      let (row, collected) ← opened.entries.foldlM (fun (row, collected) entry => do
        match ← label entry.1 with
        | .name name =>
            match fields.store 0 (.name name) entry.2 row with
            | some stored => return (← stored, collected)
            | none => return (row, collected ++ [(.text name, ← buffer .anything entry.2)])
        | .position n => return (row, collected ++ [(.whole n, ← buffer .anything entry.2)]))
        (fields.blank, ([] : List (Buffer × Buffer)))
      opened.close
      let row ← fields.complete row
      return packing.pack (row, ← settle (collectedTable collected))
termination_by structural record

def Field.read {τ : Type} (field : Field τ) {κ : Type} {m : Type → Type} [Monad m] [Refusing m]
    [Source κ m] (place : κ) : m τ :=
  match field with
  | .required layout => layout.read place
  | .optional layout => do
      match ← present place with
      | none => return none
      | some place => return some (← layout.read place)
  | .defaulted layout _ _ => layout.read place
termination_by structural field

/-- Reads a member into the field that its label means; none if it means no field. -/
def Fields.store {ρ σ : Type} (fields : Fields ρ σ) {κ : Type} {m : Type → Type}
    [Monad m] [Refusing m] [Source κ m] (index : Nat) (label : Label) (place : κ) (row : σ) :
    Option (m σ) :=
  match fields, row with
  | .nil, _ => none
  | .cons name field rest, (slot, row) =>
      if label.picks name index then
        some <| match slot with
          | some _ => refuse (.duplicateField name)
          | none => do return (some (← field.read place), row)
      else
        (rest.store (index + 1) label place row).map fun stored => do return (slot, ← stored)
termination_by structural fields

/-- Reads the fields from the items of a list, one each, and tells how many items were read. -/
def Fields.readRow {ρ σ : Type} (fields : Fields ρ σ) {κ : Type} {m : Type → Type} [Monad m]
    [Refusing m] [Source κ m] (title : String) (arity index : Nat) (close : Nat → m Unit)
    (items : List κ) : m (ρ × Nat) :=
  match fields, items with
  | .nil, _ => return ((), index)
  | .cons _ field rest, place :: places => do
      let a ← field.read place
      let (row, taken) ← rest.readRow title arity (index + 1) close places
      return ((a, row), taken)
  | .cons name field rest, [] => do
      close index
      return (← (Fields.cons name field rest).beyondEnd title arity index, index)
termination_by structural fields

def Variants.read {σ : Type} (variants : Variants σ) {κ : Type} {m : Type → Type} [Monad m]
    [Refusing m] [Source κ m] (name : String) (place : κ) : m σ :=
  match variants with
  | .nil => refuse (.unknownVariant name [])
  | .cons first record rest =>
      if first = name then do return .inl (← record.read place)
      else do return .inr (← rest.read name place)
termination_by structural variants

end

end SwaggerLift
