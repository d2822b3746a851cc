import SwaggerLift.Proofs.Json.Literal
import SwaggerLift.Proofs.Json.Source
/-!
Which part of a text a field of a record is read from: the value of the member of its name, or the
item of its number if the record is written as a list. A field without a part has the value that its
absence means.
-/

namespace SwaggerLift

open Json

/-- The value has been read from this part, or is what the absence of a part means. -/
def Field.ReadFrom {τ : Type} (field : Field τ) (part : Option Json.Place) (a : τ) : Prop :=
  match part with
  | some place => field.read place = .ok a
  | none => field.absent? = some a

def Fields.ReadFrom {ρ σ : Type} (fields : Fields ρ σ) (part : Nat → String → Option Json.Place)
    (index : Nat) (row : ρ) : Prop :=
  match fields, row with
  | .nil, _ => True
  | .cons name field rest, (a, row) =>
      field.ReadFrom (part index name) a ∧ rest.ReadFrom part (index + 1) row
termination_by structural fields

def Fields.FilledFrom {ρ σ : Type} (fields : Fields ρ σ) (part : String → Option Json.Place)
    (row : σ) : Prop :=
  match fields, row with
  | .nil, _ => True
  | .cons name field rest, (slot, row) =>
      (match part name, slot with
        | some place, some a => field.read place = .ok a
        | none, none => True
        | _, _ => False) ∧ rest.FilledFrom part row
termination_by structural fields

theorem Fields.FilledFrom.congr {ρ σ : Type} (fields : Fields ρ σ)
    (part other : String → Option Json.Place) (row : σ) (filled : fields.FilledFrom part row)
    (same : ∀ name ∈ fields.names, part name = other name) : fields.FilledFrom other row := by
  match fields, row with
  | .nil, _ => trivial
  | .cons name field rest, (slot, row) =>
      have later := FilledFrom.congr rest part other row filled.2 fun declared member =>
        same declared (List.mem_cons_of_mem name member)
      refine ⟨?_, later⟩
      rw [← same name List.mem_cons_self]
      exact filled.1
termination_by structural fields

theorem Fields.filledFrom_blank {ρ σ : Type} (fields : Fields ρ σ) :
    fields.FilledFrom (fun _ => none) fields.blank := by
  match fields with
  | .nil => trivial
  | .cons _ _ rest => exact ⟨trivial, rest.filledFrom_blank⟩
termination_by structural fields

def addPart (part : String → Option Json.Place) (name : String) (place : Json.Place)
    (other : String) : Option Json.Place :=
  (part other).or (if other = name then some place else none)

theorem addPart_other (part : String → Option Json.Place) (name other : String) (place : Json.Place)
    (different : other ≠ name) : addPart part name place other = part other := by
  rw [addPart, if_neg different, Option.or_none]

theorem Fields.filledFrom_store {ρ σ : Type} (fields : Fields ρ σ) (wellFormed : fields.WellFormed)
    (part : String → Option Json.Place) (index : Nat) (name : String) (place : Json.Place)
    (row next : σ) (filled : fields.FilledFrom part row)
    (stored : fields.store index (.name name) place row = some (.ok next : Result σ)) :
    fields.FilledFrom (addPart part name place) next := by
  match fields, row, next with
  | .nil, _, _ => cases stored
  | .cons first field rest, (slot, row), (_, next) =>
      simp only [Fields.store] at stored
      by_cases same : first = name
      · subst same
        rw [Label.picks, beq_self_eq_true, if_pos rfl, Option.some.injEq] at stored
        cases slot with
        | some a => cases stored
        | none =>
            obtain ⟨a, read, same⟩ := (bind_eq_ok_iff _ _ _).mp stored
            cases same
            -- An open slot has seen no part yet, so this one is its first.
            have missing : part first = none := by
              have empty := filled.1
              cases found : part first with
              | none => rfl
              | some place => rw [found] at empty; exact empty.elim
            have here : addPart part first place first = some place := by
              rw [addPart, missing, if_pos rfl, Option.none_or]
            refine ⟨by rw [here]; exact read, filled.2.congr _ _ _ _ fun declared member => ?_⟩
            exact (addPart_other part first declared place fun same =>
              wellFormed.1 (same ▸ member)).symm
      · have other : Label.picks first index (.name name) = false := beq_false_of_ne (Ne.symm same)
        rw [other, if_neg Bool.false_ne_true] at stored
        cases later : rest.store (index + 1) (.name name) place row with
        | none => rw [later] at stored; cases stored
        | some act =>
            rw [later, Option.map_some, Option.some.injEq] at stored
            obtain ⟨after, done, same⟩ := (bind_eq_ok_iff _ _ _).mp stored
            cases same
            rw [done] at later
            refine ⟨?_, rest.filledFrom_store wellFormed.2.2 part _ name place row next
              filled.2 later⟩
            rw [addPart_other part name first place same]
            exact filled.1
termination_by structural fields

namespace Json

def isNamed (name : String) (entry : Json.Place × Json.Place) : Bool :=
  match entry.1.text .fieldName with
  | .ok other => other == name
  | .error _ => false

def named? (entries : List (Json.Place × Json.Place)) (name : String) : Option Json.Place :=
  (entries.find? (isNamed name)).map Prod.snd

end Json

/-- The loop over the entries of a record, for every body that takes an entry the
    way `Record.read` does. -/
theorem Fields.filledFrom_foldlM {ρ σ : Type} (fields : Fields ρ σ) (wellFormed : fields.WellFormed)
    (take : σ → Json.Place × Json.Place → Result σ)
    (takes : ∀ row entry next, take row entry = .ok next →
      ∃ name, entry.1.text .fieldName = .ok name ∧
      (fields.store 0 (.name name) entry.2 row = some (.ok next : Result σ) ∨
        name ∉ fields.names ∧ next = row))
    (entries : List (Json.Place × Json.Place)) (part : String → Option Json.Place) (row next : σ)
    (filled : fields.FilledFrom part row) (read : entries.foldlM take row = .ok next) :
    fields.FilledFrom (fun name => (part name).or (named? entries name)) next := by
  induction entries generalizing part row with
  | nil =>
      cases read
      simpa [named?] using filled
  | cons entry rest ih =>
      rw [List.foldlM_cons] at read
      obtain ⟨middle, step, later⟩ := (bind_eq_ok_iff _ _ _).mp read
      obtain ⟨name, text, taken⟩ := takes row entry middle step
      have first : fields.FilledFrom (addPart part name entry.2) middle := by
        rcases taken with stored | ⟨undeclared, rfl⟩
        · exact fields.filledFrom_store wellFormed part 0 name entry.2 row middle filled stored
        · exact filled.congr _ _ _ _ fun declared member =>
            (addPart_other part name declared entry.2 fun same => undeclared (same ▸ member)).symm
      refine (ih (addPart part name entry.2) middle first later).congr _ _ _ _ fun other _ => ?_
      have found : isNamed other entry = (name == other) := by rw [isNamed, text]
      rw [addPart, named?, named?, List.find?_cons, found]
      by_cases same : other = name
      · subst same
        rw [if_pos rfl, beq_self_eq_true]
        cases part other <;> rfl
      · rw [if_neg same, beq_false_of_ne (Ne.symm same), Option.or_none]

theorem Fields.readFrom_complete {ρ σ : Type} (fields : Fields ρ σ)
    (part : String → Option Json.Place) (index : Nat) (slots : σ) (row : ρ)
    (filled : fields.FilledFrom part slots) (done : fields.complete slots = (.ok row : Result ρ)) :
    fields.ReadFrom (fun _ => part) index row := by
  match fields, slots, row with
  | .nil, _, _ => trivial
  | .cons name field rest, (slot, slots), (a, row) =>
      rw [Fields.complete] at done
      cases value : slot.or field.absent? with
      | none => rw [value] at done; cases done
      | some b =>
          rw [value] at done
          obtain ⟨_, given, done⟩ := (bind_eq_ok_iff _ _ _).mp done
          cases given
          obtain ⟨_, completed, same⟩ := (bind_eq_ok_iff _ _ _).mp done
          cases same
          refine ⟨?_, rest.readFrom_complete part (index + 1) slots row filled.2 completed⟩
          have here := filled.1
          change field.ReadFrom (part name) a
          cases found : part name with
          | none =>
              rw [found] at here
              cases slot with
              | none => exact value
              | some c => exact here.elim
          | some place =>
              rw [found] at here
              cases slot with
              | none => exact here.elim
              | some c => cases value; exact here
termination_by structural fields

theorem Fields.readFrom_beyondEnd {ρ σ : Type} (fields : Fields ρ σ) (title : String)
    (arity count : Nat) (part : Nat → String → Option Json.Place) (index : Nat) (row : ρ)
    (ended : ∀ later name, index ≤ later → part later name = none)
    (done : fields.beyondEnd title arity count = (.ok row : Result ρ)) :
    fields.ReadFrom part index row := by
  match fields, row with
  | .nil, _ => trivial
  | .cons name field rest, (a, row) =>
      rw [Fields.beyondEnd] at done
      cases value : field.beyondEnd? with
      | none => rw [value] at done; cases done
      | some b =>
          rw [value] at done
          obtain ⟨_, given, done⟩ := (bind_eq_ok_iff _ _ _).mp done
          cases given
          obtain ⟨_, completed, same⟩ := (bind_eq_ok_iff _ _ _).mp done
          cases same
          refine ⟨?_, rest.readFrom_beyondEnd title arity (count + 1) part (index + 1) row
            (fun later name within => ended later name (Nat.le_of_succ_le within)) completed⟩
          rw [ended index name (Nat.le_refl index)]
          exact field.absent?_of_beyondEnd? a value
termination_by structural fields

theorem Fields.readFrom_readRow {ρ σ : Type} (fields : Fields ρ σ) (title : String)
    (arity index : Nat) (close : Nat → Result Unit) (items : List Json.Place)
    (part : Nat → String → Option Json.Place) (row : ρ) (taken : Nat)
    (parts : ∀ offset name, part (index + offset) name = items[offset]?)
    (done : fields.readRow title arity index close items = (.ok (row, taken) : Result (ρ × Nat))) :
    fields.ReadFrom part index row := by
  match fields, items, row with
  | .nil, _, _ => trivial
  | .cons name field rest, place :: places, (a, row) =>
      simp only [Fields.readRow] at done
      obtain ⟨_, read, done⟩ := (bind_eq_ok_iff _ _ _).mp done
      obtain ⟨⟨_, _⟩, later, same⟩ := (bind_eq_ok_iff _ _ _).mp done
      cases same
      refine ⟨?_, rest.readFrom_readRow title arity (index + 1) close places part _ _ ?_ later⟩
      · rw [show part index name = some place from parts 0 name]
        exact read
      · intro offset other
        rw [Nat.add_assoc, Nat.add_comm 1 offset, parts (offset + 1) other, List.getElem?_cons_succ]
  | .cons name field rest, [], (a, row) =>
      simp only [Fields.readRow] at done
      obtain ⟨_, _, done⟩ := (bind_eq_ok_iff _ _ _).mp done
      obtain ⟨_, ended, same⟩ := (bind_eq_ok_iff _ _ _).mp done
      cases same
      refine readFrom_beyondEnd _ title arity _ part _ _ ?_ ended
      intro later other within
      obtain ⟨offset, rfl⟩ := Nat.exists_eq_add_of_le within
      rw [parts offset other, List.getElem?_nil]
termination_by structural fields

namespace Json.Literal

theorem itemTrees_eq (items : List Literal) : itemTrees items = items.map tree := by
  induction items with
  | nil => rfl
  | cons item rest ih => rw [itemTrees, ih, List.map_cons]

theorem memberTrees_eq (members : List (Reading String × Literal)) :
    memberTrees members = members.map fun member => (.text member.1, member.2.tree) := by
  induction members with
  | nil => rfl
  | cons first rest ih => rw [memberTrees, ih, List.map_cons]

def hasName (name : String) (member : Reading String × Literal) : Bool :=
  match member.1.wanted with
  | .ok other => other == name
  | .error _ => false

def part (s : Literal) (index : Nat) (name : String) : Option Literal :=
  match s with
  | object members => (members.find? (hasName name)).map Prod.snd
  | list items => items[index]?
  | _ => none

end Json.Literal

theorem Json.Tree.refused_ne_ok {α : Type} (tree : Tree) (wanted : Wanted) (a : α) :
    tree.refused wanted ≠ .ok a := by
  intro done
  obtain ⟨found, _, refused⟩ := (bind_eq_ok_iff _ _ _).mp done
  cases refused

theorem Json.lift_eq_ok_iff {α : Type} (x : Except Cut α) (a : α) : lift x = .ok a ↔ x = .ok a := by
  cases x <;> simp [lift]

def Json.memberEntries (room : Nat) (members : List (Reading String × Literal)) :
    List (Json.Place × Json.Place) :=
  members.map fun member => (⟨room, .text member.1⟩, ⟨room, member.2.tree⟩)

theorem Json.record_object (title : String) (room : Nat)
    (members : List (Reading String × Literal)) :
    Source.record title (Json.Place.mk (room + 1) (Literal.object members).tree) =
      .ok (.named ⟨memberEntries room members, check none⟩) := by
  rw [Literal.tree, Literal.memberTrees_eq]
  change Except.ok (Form.named (Entries.mk (List.map _ (List.map _ members)) _)) = _
  rw [List.map_map]
  rfl

theorem Json.record_list (title : String) (room : Nat) (items : List Literal) :
    ∃ close, Source.record title (Json.Place.mk (room + 1) (Literal.list items).tree) =
      .ok (.positional ⟨items.map fun item => ⟨room, item.tree⟩, close⟩) := by
  rw [Literal.tree, Literal.itemTrees_eq]
  have places :
      (items.map Literal.tree).map (Json.Place.mk room) =
        items.map fun item => ⟨room, item.tree⟩ := by
    rw [List.map_map]
    rfl
  rw [← places]
  exact ⟨_, rfl⟩

theorem Json.named?_memberEntries (members : List (Reading String × Literal)) (room : Nat)
    (name : String) :
    named? (memberEntries room members) name =
      ((members.find? (Literal.hasName name)).map Prod.snd).map fun part => ⟨room, part.tree⟩ := by
  have sameNames : isNamed name ∘ (fun member : Reading String × Literal =>
      ((⟨room, .text member.1⟩ : Json.Place), (⟨room, member.2.tree⟩ : Json.Place))) =
        Literal.hasName name := by
    funext member
    simp only [Function.comp_apply, isNamed, Literal.hasName, Json.Place.text]
    cases member.1.wanted <;> rfl
  rw [named?, memberEntries, List.find?_map, sameNames, Option.map_map, Option.map_map]
  rfl

theorem Record.readFrom_part {ρ σ α : Type} (title : String) (fields : Fields ρ σ)
    (packing : Packing ρ α) (wellFormed : fields.WellFormed) (s : Literal) (room : Nat) (a : α)
    (done : (Record.closed title fields packing).read (Json.Place.mk (room + 1) s.tree) =
      (.ok a : Result α)) :
    ∃ row, a = packing.pack row ∧
      fields.ReadFrom (fun index name => (s.part index name).map fun part =>
        ⟨room, part.tree⟩) 0 row := by
  rw [Record.read] at done
  obtain ⟨form, opened, done⟩ := (bind_eq_ok_iff _ _ _).mp done
  cases s with
  | object members =>
      rw [record_object] at opened
      cases opened
      obtain ⟨slots, filled, done⟩ := (bind_eq_ok_iff _ _ _).mp done
      obtain ⟨_, _, done⟩ := (bind_eq_ok_iff _ _ _).mp done
      obtain ⟨row, completed, same⟩ := (bind_eq_ok_iff _ _ _).mp done
      cases same
      -- Every turn of the loop stores the value of a declared member or passes over another one.
      have named := by
        refine fields.filledFrom_foldlM wellFormed _ (fun row entry next step => ?_)
          (memberEntries room members) _ _ slots fields.filledFrom_blank filled
        obtain ⟨_, labelled, step⟩ := (bind_eq_ok_iff _ _ _).mp step
        obtain ⟨name, text, same⟩ := (bind_eq_ok_iff _ _ _).mp labelled
        cases same
        refine ⟨name, text, ?_⟩
        cases stored : fields.store 0 (.name name) entry.2 row with
        | some act =>
            rw [stored] at step
            exact .inl (congrArg some step)
        | none =>
            rw [stored] at step
            obtain ⟨_, _, same⟩ := (bind_eq_ok_iff _ _ _).mp step
            cases same
            exact .inr ⟨(fields.store_eq_none_iff 0 name entry.2 row).mp stored, rfl⟩
      have read := fields.readFrom_complete _ 0 _ _ named completed
      simp only [Option.none_or, named?_memberEntries] at read
      exact ⟨row, rfl, read⟩
  | list items =>
      obtain ⟨close, unfolded⟩ := record_list title room items
      rw [unfolded] at opened
      cases opened
      obtain ⟨⟨row, taken⟩, read, done⟩ := (bind_eq_ok_iff _ _ _).mp done
      obtain ⟨_, _, same⟩ := (bind_eq_ok_iff _ _ _).mp done
      cases same
      refine ⟨row, rfl, fields.readFrom_readRow title _ 0 _ _ _ row taken
        (fun offset name => ?_) read⟩
      rw [List.getElem?_map, Nat.zero_add]
      rfl
  | null => exact absurd opened (Tree.refused_ne_ok .null _ form)
  | flag b => exact absurd opened (Tree.refused_ne_ok (.flag b) _ form)
  | numeral n => exact absurd opened (Tree.refused_ne_ok (.number n.reading) _ form)
  | text s => exact absurd opened (Tree.refused_ne_ok (.text s) _ form)

theorem Record.closed_of_read {ρ σ α : Type} (title : String) (fields : Fields ρ σ)
    (packing : Packing ρ α) (place : Json.Place) (a : α)
    (done : (Record.closed title fields packing).read place = (.ok a : Result α)) :
    place.tree.Closed := by
  obtain ⟨room, tree⟩ := place
  rw [Record.read] at done
  obtain ⟨form, opened, done⟩ := (bind_eq_ok_iff _ _ _).mp done
  cases tree with
  | object members cut =>
      obtain ⟨entries, entered, same⟩ := (bind_eq_ok_iff _ _ _).mp opened
      cases same
      obtain ⟨_, _, done⟩ := (bind_eq_ok_iff _ _ _).mp done
      obtain ⟨_, closes, _⟩ := (bind_eq_ok_iff _ _ _).mp done
      cases room with
      | zero => cases entered
      | succ room =>
          cases entered
          cases cut with
          | none => trivial
          | some cut => cases closes
  | list items cut =>
      obtain ⟨entries, entered, same⟩ := (bind_eq_ok_iff _ _ _).mp opened
      cases same
      obtain ⟨⟨_, taken⟩, _, done⟩ := (bind_eq_ok_iff _ _ _).mp done
      obtain ⟨_, closes, _⟩ := (bind_eq_ok_iff _ _ _).mp done
      cases room with
      | zero => cases entered
      | succ room =>
          cases entered
          cases cut with
          | none => trivial
          | some cut =>
              -- The list is closed only after its last item, where the fault stands.
              change (if taken < items.length then _ else _) = _ at closes
              split at closes <;> cases closes
  | null => exact absurd opened (Tree.refused_ne_ok .null _ form)
  | flag b => exact absurd opened (Tree.refused_ne_ok (.flag b) _ form)
  | number n => exact absurd opened (Tree.refused_ne_ok (.number n) _ form)
  | text s => exact absurd opened (Tree.refused_ne_ok (.text s) _ form)
  | broken cut => cases opened

/-- A text from which a record has been read spells a content, and the record has
    been read from its parts. -/
theorem Json.exists_spells_of_read {ρ σ α : Type} (title : String) (fields : Fields ρ σ)
    (packing : Packing ρ α) (wellFormed : fields.WellFormed) (text : String) (a : α)
    (done : Json.read (.record (.closed title fields packing)) text = .ok a) :
    ∃ s : Literal, s.Spells text ∧ ∃ row, a = packing.pack row ∧
      fields.ReadFrom (fun index name => (s.part index name).map fun part =>
        ⟨deepest - 1, part.tree⟩) 0 row := by
  obtain ⟨_, read, same⟩ := (bind_eq_ok_iff _ _ _).mp done
  have alone : (Parsed.ofText text).trailing = false := by
    cases trailing : (Parsed.ofText text).trailing with
    | false => rfl
    | true => rw [trailing] at same; cases same
  rw [alone] at same
  cases same
  have closed := Record.closed_of_read title fields packing _ a read
  obtain ⟨s, spells⟩ := Parsed.exists_spells text closed alone
  rw [spells.ofText] at read
  exact ⟨s, spells, Record.readFrom_part title fields packing wellFormed s (deepest - 1) a read⟩

theorem Field.exists_part_of_optional {α : Type} (layout : Layout α)
    (part : Option Literal) (room : Nat) (a : α)
    (done : (Field.optional layout).ReadFrom (part.map fun part => ⟨room, part.tree⟩) (some a)) :
    ∃ s, part = some s ∧ layout.read (Json.Place.mk room s.tree) = (.ok a : Result α) := by
  cases part with
  | none => cases done
  | some s =>
      refine ⟨s, rfl, ?_⟩
      obtain ⟨here, present, done⟩ := (bind_eq_ok_iff _ _ _).mp done
      have same : here = none ∨ here = some (Json.Place.mk room s.tree) := by
        cases s <;> cases present <;> first | exact Or.inl rfl | exact Or.inr rfl
      rcases same with rfl | rfl
      · cases done
      · obtain ⟨b, read, same⟩ := (bind_eq_ok_iff _ _ _).mp done
        cases same
        exact read

theorem Layout.exists_members_of_read {α : Type} (item : Layout α) (room : Nat) (s : Literal)
    (table : Table α)
    (done : (Layout.table item).read (Json.Place.mk room s.tree) = (.ok table : Result (Table α))) :
    ∃ members entries inside, s = .object members ∧ table = .ofList entries ∧
      List.Forall₂ (fun member entry => member.1.wanted = .ok entry.1 ∧
        item.read (Json.Place.mk inside member.2.tree) =
          (.ok entry.2 : Result α)) members entries := by
  obtain ⟨opened, entered, done⟩ := (bind_eq_ok_iff _ _ _).mp done
  obtain ⟨entries, read, done⟩ := (bind_eq_ok_iff _ _ _).mp done
  obtain ⟨_, _, same⟩ := (bind_eq_ok_iff _ _ _).mp done
  cases same
  cases s with
  | object members =>
      cases room with
      | zero => cases entered
      | succ room =>
          have entries_eq : opened.entries = memberEntries room members := by
            rw [Literal.tree, Literal.memberTrees_eq] at entered
            cases entered
            exact List.map_map
          rw [entries_eq, mapM_eq_ok_iff, memberEntries, List.forall₂_map_left_iff] at read
          refine ⟨members, entries, room, rfl, rfl, read.imp fun member entry step => ?_⟩
          obtain ⟨name, named, step⟩ := (bind_eq_ok_iff _ _ _).mp step
          obtain ⟨b, inside, same⟩ := (bind_eq_ok_iff _ _ _).mp step
          cases same
          exact ⟨(lift_eq_ok_iff _ _).mp named, inside⟩
  | null => exact absurd entered (Tree.refused_ne_ok .null _ opened)
  | flag b => exact absurd entered (Tree.refused_ne_ok (.flag b) _ opened)
  | numeral n => exact absurd entered (Tree.refused_ne_ok (.number n.reading) _ opened)
  | text s => exact absurd entered (Tree.refused_ne_ok (.text s) _ opened)
  | list items => exact absurd entered (Tree.refused_ne_ok (.list _ none) _ opened)

end SwaggerLift
