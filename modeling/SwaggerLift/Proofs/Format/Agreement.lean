import SwaggerLift.Format.Write
import SwaggerLift.Proofs.Format.Read
import SwaggerLift.Proofs.Json.Print
import SwaggerLift.Proofs.Layout.Agreement
import SwaggerLift.Proofs.Yaml.Faithful
/-!
What is read from a JSON text is read from the YAML text of the same value as well. A YAML text may
be nested one level deeper, and it takes any scalar for a text, but where JSON accepts something
both mean the same.
-/

namespace SwaggerLift

/-- One value stands at both places, and at the second one no fewer levels may be opened. -/
structure Format.Beside (value : Value) (p : Json.Place) (q : Yaml.Place) : Prop where
  tree : p.tree = .ofValue .clean value
  node : q.node = .ofValue value
  whole : value.floatFree = true
  room : p.room ≤ q.room

def Format.Named (name : String) (p : Json.Place) (q : Yaml.Place) : Prop :=
  p.tree = .text (.clean name) ∧ q.Names name

variable {m : Type → Type} {α β : Type} {R : α → β → Prop}

theorem Json.follows_refused [Pure m] (tree : Json.Tree) (wanted : Wanted) (y : m β) :
    Follows R (tree.refused wanted : Json.Result α) y := by
  intro a done
  obtain ⟨_, _, refused⟩ := (bind_eq_ok_iff _ _ _).mp done
  cases refused

theorem Json.Place.follows_text [Pure m] {R : String → β → Prop} (room : Nat) (value : Value)
    (wanted : Wanted) (other : ∀ s, value ≠ .text s) (y : m β) :
    Follows R (Json.Place.text wanted ⟨room, .ofValue .clean value⟩) y := by
  cases value with
  | text s => exact absurd rfl (other s)
  | _ => exact Json.follows_refused _ wanted y

theorem Json.Place.follows_form [Pure m] {R : Form Json.Place Json.Result → β → Prop} (room : Nat)
    (value : Value) (wanted : Wanted) (lists : ∀ items, value ≠ .list items)
    (objects : ∀ members, value ≠ .object members) (y : m β) :
    Follows R (Json.Place.form wanted ⟨room, .ofValue .clean value⟩) y := by
  cases value with
  | list items => exact absurd rfl (lists items)
  | object members => exact absurd rfl (objects members)
  | _ => exact Json.follows_refused _ wanted y

theorem follows_unit [Pure m] (x : Json.Result Unit) : Follows Eq x (pure () : m Unit) :=
  fun _ _ => ⟨(), rfl, rfl⟩

theorem follows_fit (room more depth : Nat) (fits : room ≤ more) (a : α) :
    Follows Eq (Json.limit.fit room depth a) (Yaml.limit.fit more depth a) := by
  rw [Limit.fit, Limit.fit]
  by_cases within : depth ≤ room
  · rw [if_pos within, if_pos (Nat.le_trans within fits)]
    exact follows_pure _ a a rfl
  · rw [if_neg within]
    exact follows_error _ _ _

theorem follows_enters (room more : Nat) (fits : room ≤ more) (x : Json.Result α)
    (y : Yaml.Reader β) {sound : Nat → α → Prop} {holds : Nat → β → Prop}
    (first : Json.limit.Enters room x sound) (second : Yaml.limit.Enters more y holds)
    (inside : ∀ inner wider a b, inner ≤ wider → sound inner a → holds wider b → R a b) :
    Follows R x y := by
  rcases first with ⟨_, rfl⟩ | ⟨inner, a, rfl, rfl, here⟩
  · exact follows_error _ _ _
  · rcases second with ⟨rfl, _⟩ | ⟨wider, b, rfl, rfl, there⟩
    · exact absurd fits (Nat.not_succ_le_zero inner)
    · exact follows_pure R a b (inside inner wider a b (Nat.le_of_succ_le_succ fits) here there)

theorem Format.alike_items (inner wider : Nat) (fits : inner ≤ wider) (items : List Value)
    (opened : Items Json.Place Json.Result) (other : Items Yaml.Place Yaml.Reader)
    (here : List.Forall₂ (fun place value => place = Json.Place.mk inner (.ofValue .clean value))
      opened.items items)
    (there : List.Forall₂ (Yaml.Place.Holds wider) other.items items)
    (closes : ∀ taken, other.close taken = pure ()) : opened.Alike Format.Beside items other := by
  constructor
  · apply (forall₂_trans (forall₂_with_mem here) there.flip).imp
    rintro p q ⟨item, ⟨member, rfl⟩, holds⟩
    exact ⟨item, member, rfl, holds.node_eq, holds.whole, holds.room_eq ▸ fits⟩
  · intro taken
    rw [closes]
    exact follows_unit _

theorem Format.alike_members (inner wider : Nat) (fits : inner ≤ wider)
    (members : List (String × Value)) (opened : Entries Json.Place Json.Result)
    (other : Entries Yaml.Place Yaml.Reader)
      (here : opened.Hold (fun place value => place = Json.Place.mk inner (.ofValue .clean value))
    (fun place name => place.tree = .text (.clean name)) members)
      (there : other.Hold (Yaml.Place.Holds wider) Yaml.Place.Names members) :
    opened.Alike Format.Beside Format.Named members other := by
  constructor
  · apply (forall₂_trans (forall₂_with_mem here.1) there.1.flip).imp
    rintro p q ⟨member, ⟨held, spelled, same⟩, named, holds⟩
    refine ⟨member, held, ⟨spelled, named⟩, ?_⟩
    exact ⟨by rw [same], holds.node_eq, holds.whole, by rw [same, holds.room_eq]; exact fits⟩
  · rw [there.2]
    exact follows_unit _

theorem Yaml.Place.present_null (place : Place) (node : place.node = .ofValue .null) :
    place.present = pure none := by
  obtain ⟨document, room, trail, _⟩ := place
  subst node
  rfl

theorem Format.follows_named (room more : Nat) (fits : room ≤ more)
    (members : List (String × Value)) (x : Json.Result (Form Json.Place Json.Result))
    (y : Yaml.Reader (Form Yaml.Place Yaml.Reader))
    (first : Json.limit.Enters room x fun inner form => ∃ opened, form = .named opened ∧
      opened.Hold (fun place value => place = Json.Place.mk inner (.ofValue .clean value))
        (fun place name => place.tree = .text (.clean name)) members)
    (second : Yaml.limit.Enters more y fun inner form => ∃ opened, form = .named opened ∧
      opened.Hold (Yaml.Place.Holds inner) Yaml.Place.Names members) :
    Follows (Form.Alike Format.Beside Format.Named (.object members)) x y := by
  refine follows_enters room more fits x y first second ?_
  rintro inner wider _ _ fits ⟨opened, rfl, here⟩ ⟨other, rfl, there⟩
  exact .named (Format.alike_members inner wider fits members opened other here there)

theorem Format.follows_positional (room more : Nat) (fits : room ≤ more) (items : List Value)
    (x : Json.Result (Form Json.Place Json.Result)) (y : Yaml.Reader (Form Yaml.Place Yaml.Reader))
    (first : Json.limit.Enters room x fun inner form => ∃ opened, form = .positional opened ∧
      List.Forall₂ (fun place value => place = Json.Place.mk inner (.ofValue .clean value))
        opened.items items)
    (second : Yaml.limit.Enters more y fun inner form => ∃ opened, form = .positional opened ∧
      List.Forall₂ (Yaml.Place.Holds inner) opened.items items ∧
        ∀ taken, opened.close taken = pure ()) :
    Follows (Form.Alike Format.Beside Format.Named (.list items)) x y := by
  refine follows_enters room more fits x y first second ?_
  rintro inner wider _ _ fits ⟨opened, rfl, here⟩ ⟨other, rfl, there, closes⟩
  exact .positional (Format.alike_items inner wider fits items opened other here there closes)

def Format.agreement : Agreement Json.Place Yaml.Place Json.Fault Yaml.Reader where
  alike := Format.Beside
  names := Format.Named
  within := by
    intro α p q x y follows a done
    obtain ⟨_, rfl, rfl⟩ := follows a done
    exact ⟨a, rfl, rfl⟩
  text := by
    rintro value ⟨room, _⟩ ⟨document, more, trail, _⟩ wanted ⟨rfl, rfl, whole, fits⟩
    cases value with
    | text s =>
        rw [Yaml.Node.ofValue_text]
        exact follows_pure _ s s rfl
    | _ => exact Json.Place.follows_text room _ wanted (by nofun) _
  flag := by
    rintro value ⟨room, _⟩ ⟨document, more, trail, _⟩ ⟨rfl, rfl, whole, fits⟩
    cases value with
    | flag b => cases b <;> exact follows_pure _ _ _ rfl
    | _ => exact Json.follows_refused _ _ _
  variant := by
    rintro α value ⟨room, _⟩ ⟨document, more, trail, _⟩ pick choose ⟨rfl, rfl, whole,
      fits⟩ named picks
    cases value with
    | text s =>
        rw [Yaml.Node.ofValue_text]
        intro a done
        obtain ⟨_, same, rfl⟩ := picks s a done
        exact ⟨a, congrArg (Yaml.located trail) same, rfl⟩
    | object members => exact absurd rfl (named members)
    | _ => exact follows_error _ _ _
  verbatim := by
    rintro value ⟨room, _⟩ ⟨document, more, trail, _⟩ ⟨rfl, rfl, whole, fits⟩
    rw [Json.Place.verbatim_ofValue]
    change Follows Eq _ (Yaml.readVerbatim document more trail (.ofValue value))
    rw [Yaml.readVerbatim_ofValue document value whole]
    exact follows_fit room more _ fits _
  buffer := by
    rintro value ⟨room, _⟩ ⟨document, more, trail, _⟩ wanted ⟨rfl, rfl, whole, fits⟩
    change Follows Eq ((Json.Tree.ofValue .clean value).buffer room)
      (Yaml.readBuffer document more trail wanted (.ofValue value))
    rw [Json.Tree.buffer_ofValue, Yaml.readBuffer_ofValue document value whole]
    exact follows_fit room more _ fits _
  skip _ _ _ _ := follows_unit _
  present := by
    intro value p q beside
    obtain ⟨room, _⟩ := p
    obtain ⟨rfl, node, whole, fits⟩ := beside
    by_cases null : value = .null
    · subst null
      change Follows _ _ q.present
      rw [q.present_null node]
      exact follows_pure _ none none .none
    · change Follows _ _ q.present
      rw [q.present_ofValue value node whole null]
      have more : Source.present (Json.Place.mk room (.ofValue .clean value)) =
          (pure (some (Json.Place.mk room (.ofValue .clean value))) : Json.Result _) := by
        cases value with
        | null => exact absurd rfl null
        | _ => rfl
      rw [more]
      exact follows_pure _ _ _ (.some ⟨rfl, node, whole, fits⟩)
  list := by
    rintro value ⟨room, _⟩ ⟨document, more, trail, _⟩ ⟨rfl, rfl, whole, fits⟩
    cases value with
    | list items =>
        have second : Yaml.limit.Enters more _ fun inner (opened : Items Yaml.Place Yaml.Reader) =>
            List.Forall₂ (Yaml.Place.Holds inner) opened.items items ∧
              ∀ taken, opened.close taken = pure () :=
          Yaml.enters more (Yaml.Place.itemPlaces ⟨document, more, trail,
            .ofValue (.list items)⟩ · _) _
            fun inner => ⟨Yaml.Place.holds_items _ inner items whole, fun _ => rfl⟩
        refine follows_enters room more fits _ _ (Json.Place.openList_enters room _ items) second ?_
        intro inner wider opened other fits here there
        exact ⟨items, rfl,
          Format.alike_items inner wider fits items opened other here.1 there.1 there.2⟩
    | _ => exact Json.follows_refused _ _ _
  mapping := by
    rintro value ⟨room, _⟩ ⟨document, more, trail, _⟩ wanted ⟨rfl, rfl, whole, fits⟩
    cases value with
    | object members =>
        refine follows_enters room more fits _ _ (Json.Place.openObject_enters room _ members)
          (Yaml.Place.enters_mapping ⟨document, more, trail, _⟩ members whole) ?_
        intro inner wider opened other fits here there
        exact ⟨members, rfl, Format.alike_members inner wider fits members opened other here there⟩
    | _ => exact Json.follows_refused _ _ _
  record := by
    rintro value ⟨room, _⟩ ⟨document, more, trail, _⟩ title ⟨rfl, rfl, whole, fits⟩ named
    cases value with
    | list items => exact absurd rfl (named items)
    | object members =>
        exact Format.follows_named room more fits members _ _
          (Json.faithful.record_eq room _ members title rfl)
          (Yaml.faithful.record_eq more ⟨document, more, trail, _⟩ members title ⟨rfl, rfl, whole⟩)
    | _ => exact Json.Place.follows_form room _ _ (by nofun) (by nofun) _
  union := by
    rintro value ⟨room, _⟩ ⟨document, more, trail, _⟩ title ⟨rfl, rfl, whole, fits⟩
    cases value with
    | list items =>
        have first := Json.Place.openList_enters room (.ofValue .clean (.list items)) items
        exact Format.follows_positional room more fits items _ _
          (first.map Json.limit Form.positional fun inner opened here => ⟨opened, rfl, here.1⟩)
          (Yaml.enters more _ _ fun inner =>
            ⟨_, rfl, Yaml.Place.holds_items _ inner items whole, fun _ => rfl⟩)
    | object members =>
        exact Format.follows_named room more fits members _ _
          (Json.faithful.union_eq room _ members title rfl)
          (Yaml.faithful.union_eq more ⟨document, more, trail, _⟩ members title ⟨rfl, rfl, whole⟩)
    | _ => exact Json.Place.follows_form room _ _ (by nofun) (by nofun) _
  key_label := by
    rintro name ⟨room, _⟩ ⟨document, more, trail, _⟩ ⟨rfl, rfl⟩
    exact ⟨rfl, rfl⟩
  key_text := by
    rintro name ⟨room, _⟩ ⟨document, more, trail, _⟩ ⟨rfl, rfl⟩
    exact ⟨rfl, rfl⟩
  key_buffer := by
    rintro name ⟨room, _⟩ ⟨document, more, trail, _⟩ wanted ⟨rfl, rfl⟩
    exact ⟨rfl, Yaml.readBuffer_name document more trail wanted name⟩

/-- Whatever is read from a JSON text of a value is read from its YAML text. -/
theorem Yaml.read_of_json {α : Type} (layout : Layout α) (value : Value)
    (whole : value.floatFree = true) (labelled : layout.Labelled value) (text : String)
    (spells : (Json.Literal.ofValue value).Spells text) (a : α)
    (done : Json.read layout text = .ok a) :
    Yaml.read layout (String.ofList (Yaml.print value)) = .ok a := by
  have parsed : Json.Parsed.ofText text = ⟨.ofValue Json.rereadNumber value, false⟩ := by
    rw [spells.ofText, Json.Literal.tree_ofValue]
  rw [Json.read_of_ofText layout text value whole parsed] at done
  have beside : Format.Beside value ⟨Json.deepest, .ofValue .clean value⟩
      ⟨⟨.ofValue value, []⟩, Yaml.deepest, .root, .ofValue value⟩ :=
        ⟨rfl, rfl, whole, Nat.le_succ Json.deepest⟩
  obtain ⟨_, same, rfl⟩ := layout.follows_read Format.agreement value labelled _ _ beside a done
  rw [Yaml.read, Yaml.Document.ofText?_print]
  change ((layout.read (Yaml.Place.mk _ _ _ _)).run 0 >>= fun found => pure found.1) = _
  rw [same]
  rfl

end SwaggerLift
