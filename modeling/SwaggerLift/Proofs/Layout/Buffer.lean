import SwaggerLift.Layout.Read
import SwaggerLift.Proofs.Table
/-!
The buffer of a document value holds all of it: content that is carried over comes out of the buffer
as it went in.
-/

namespace SwaggerLift

def Number.toBuffer : Number → Buffer
  | .whole n => .whole n
  | .float x _ => .float x

mutual

def Buffer.ofValue : Value → Buffer
  | .null => .null
  | .flag b => .flag b
  | .number n => n.toBuffer
  | .text s => .text s
  | .list items => .list (ofItems items)
  | .object members => .mapping (ofMembers members)

def Buffer.ofItems : List Value → List Buffer
  | [] => []
  | value :: rest => ofValue value :: ofItems rest

def Buffer.ofMembers : List (String × Value) → List (Buffer × Buffer)
  | [] => []
  | (name, value) :: rest => (.text name, ofValue value) :: ofMembers rest

end

theorem Buffer.ofItems_eq (items : List Value) : ofItems items = items.map ofValue := by
  induction items with
  | nil => rfl
  | cons value rest ih => rw [ofItems, ih, List.map_cons]

theorem Buffer.ofMembers_eq (members : List (String × Value)) :
    ofMembers members = members.map fun member => (.text member.1, ofValue member.2) := by
  induction members with
  | nil => rfl
  | cons first rest ih => rw [ofMembers, ih, List.map_cons]

theorem Number.readVerbatim_toBuffer (n : Number) : n.toBuffer.readVerbatim = .ok (.number n) := by
  cases n with
  | whole n => rfl
  | float x finite =>
      simp [Number.toBuffer, Buffer.readVerbatim, Verbatim.float, Number.ofFloat?, finite]

/-! The content of a value. Members are taken one after the other; only then they become a table, in
which the last one of a name counts. -/

mutual

def Verbatim.ofValue : Value → Verbatim
  | .null => .null
  | .flag b => .flag b
  | .number n => .number n
  | .text s => .text s
  | .list items => .list (ofItems items)
  | .object members => .object (.ofList (ofMembers members))

def Verbatim.ofItems : List Value → List Verbatim
  | [] => []
  | value :: rest => ofValue value :: ofItems rest

def Verbatim.ofMembers : List (String × Value) → List (String × Verbatim)
  | [] => []
  | (name, value) :: rest => (name, ofValue value) :: ofMembers rest

end

theorem Verbatim.ofItems_eq (items : List Value) : ofItems items = items.map ofValue := by
  induction items with
  | nil => rfl
  | cons value rest ih => rw [ofItems, ih, List.map_cons]

theorem Verbatim.ofMembers_eq (members : List (String × Value)) :
    ofMembers members = members.map fun member => (member.1, ofValue member.2) := by
  induction members with
  | nil => rfl
  | cons first rest ih => rw [ofMembers, ih, List.map_cons]

theorem Verbatim.val_object_ofList (read : List (String × Verbatim))
    (distinct : (read.map Prod.fst).Nodup) :
    (object (.ofList read)).val = .object (read.map fun entry => (entry.1, entry.2.val)) := by
  change Value.object ((Table.ofList read).entries.map fun entry => (entry.1, entry.2.val)) = _
  rw [Table.entries_ofList read distinct]

mutual

/-- A value in which no name is repeated is its own content. -/
theorem Verbatim.val_ofValue (value : Value) (distinct : value.Distinct) :
    (ofValue value).val = value := by
  match value with
  | .null | .flag _ | .number _ | .text _ => rfl
  | .list items => exact congrArg Value.list (Verbatim.val_ofItems items distinct)
  | .object members =>
      have names : (ofMembers members).map Prod.fst = members.map Prod.fst := by
        rw [ofMembers_eq, List.map_map]
        rfl
      rw [ofValue, val_object_ofList _ (by rw [names]; exact distinct.1),
        Verbatim.val_ofMembers members distinct.2]

theorem Verbatim.val_ofItems (items : List Value) (distinct : Value.AllDistinct items) :
    (ofItems items).map Subtype.val = items := by
  match items with
  | [] => rfl
  | value :: rest =>
      rw [ofItems, List.map_cons, Verbatim.val_ofValue value distinct.1,
        Verbatim.val_ofItems rest distinct.2]

theorem Verbatim.val_ofMembers (members : List (String × Value))
    (distinct : Value.MembersDistinct members) :
    ((ofMembers members).map fun entry => (entry.1, entry.2.val)) = members := by
  match members with
  | [] => rfl
  | (name, value) :: rest =>
      rw [ofMembers, List.map_cons, Verbatim.val_ofValue value distinct.1,
        Verbatim.val_ofMembers rest distinct.2]

end

@[simp] theorem Verbatim.ofValue_val (a : Verbatim) : ofValue a.val = a :=
  Subtype.ext (val_ofValue a.val a.property)

mutual

theorem Buffer.readVerbatim_ofValue (value : Value) :
    (ofValue value).readVerbatim = .ok (.ofValue value) := by
  match value with
  | .null | .flag b | .text s => rfl
  | .number n => exact n.readVerbatim_toBuffer
  | .list items =>
      rw [ofValue, readVerbatim, Buffer.readItems_ofItems items]
      rfl
  | .object members =>
      rw [ofValue, readVerbatim, Buffer.readEntries_ofMembers members .textKey]
      rfl

theorem Buffer.readItems_ofItems (items : List Value) :
    readItems (ofItems items) = .ok (Verbatim.ofItems items) := by
  match items with
  | [] => rfl
  | value :: rest =>
      rw [ofItems, readItems, Buffer.readVerbatim_ofValue value, Buffer.readItems_ofItems rest]
      rfl

theorem Buffer.readEntries_ofMembers (members : List (String × Value)) (wanted : Wanted) :
    readEntries wanted (ofMembers members) = .ok (Verbatim.ofMembers members) := by
  match members with
  | [] => rfl
  | (name, value) :: rest =>
      rw [ofMembers, readEntries, Buffer.readText, Buffer.readVerbatim_ofValue value,
        Buffer.readEntries_ofMembers rest .text]
      rfl

end

theorem collectedTable_eq (members : List (String × Value)) :
    collectedTable (Buffer.ofMembers members) = .ok (.ofList (Verbatim.ofMembers members)) := by
  have each : (Buffer.ofMembers members).mapM
      (fun entry => do return (← entry.1.readText .text, ← entry.2.readVerbatim)) =
        Except.ok (ε := Mismatch) (Verbatim.ofMembers members) := by
    rw [mapM_eq_ok_iff, Buffer.ofMembers_eq, Verbatim.ofMembers_eq, List.forall₂_map_left_iff,
      List.forall₂_map_right_iff, List.forall₂_same]
    intro member _
    simp only [Buffer.readVerbatim_ofValue]
    rfl
  rw [collectedTable, each]
  rfl

theorem collectedTable_ofMembers (table : Table Verbatim) :
    collectedTable (Buffer.ofMembers (table.entries.map fun entry => (entry.1, entry.2.val))) =
      .ok table := by
  have same :
      Verbatim.ofMembers (table.entries.map fun entry => (entry.1, entry.2.val)) =
        table.entries := by
    rw [Verbatim.ofMembers_eq, List.map_map]
    simp [Function.comp_def]
  rw [collectedTable_eq, same, table.ofList_entries]

end SwaggerLift
