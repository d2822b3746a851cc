import SwaggerLift.Value.Verbatim
/-!
Layouts: how the values of a type are written as document values. A layout is plain data, so a
reader of any source and a writer are functions on it, and a law of both is one induction over it. A
record is a row of named fields; it may also collect all other members. A union is a choice of
records that a tag member tells apart.
-/

namespace SwaggerLift

/-- Two types with the same values: the record as its fields lie in a row, and
    the type of the domain. -/
structure Packing (ρ α : Type) where
  pack : ρ → α
  unpack : α → ρ
  pack_unpack : ∀ a, pack (unpack a) = a := by intro a; rfl
  unpack_pack : ∀ r, unpack (pack r) = r := by intro r; rfl

structure Naming (α : Type) where
  options : List (String × α)
  nameOf : α → String
  find_nameOf : ∀ a, options.lookup (nameOf a) = some a

def Naming.names (n : Naming α) : List String := n.options.map Prod.fst

mutual

inductive Layout : Type → Type 1
  | text : Layout String
  | flag : Layout Bool
  | verbatim : Layout Verbatim
  | named {α : Type} (naming : Naming α) : Layout α
  | list {α : Type} (item : Layout α) : Layout (List α)
  | table {α : Type} (item : Layout α) : Layout (Table α)
  | record {α : Type} (record : Record α) : Layout α
  | union {σ α : Type} (title tag : String) (variants : Variants σ)
      (packing : Packing σ α) : Layout α

/-- A closed record passes over members that it does not declare; an
    extensible one collects them. -/
inductive Record : Type → Type 1
  | closed {ρ σ α : Type} (title : String) (fields : Fields ρ σ) (packing : Packing ρ α) : Record α
  | extensible {ρ σ α : Type} (title : String) (fields : Fields ρ σ)
      (packing : Packing (ρ × Table Verbatim) α) : Record α

/-- What a field does when its member is absent, and when it is left out. -/
inductive Field : Type → Type 1
  | required {α : Type} (layout : Layout α) : Field α
  /-- Absent and null mean nothing; nothing is left out. -/
  | optional {α : Type} (layout : Layout α) : Field (Option α)
  /-- An absent member means a fixed value; hidden values are left out. -/
  | defaulted {α : Type} (layout : Layout α) (absent : α) (hidden : α → Bool) : Field α

/-- Fields in order. The first index is the type of the full row, the second that of a row in which
    each field may still be open. -/
inductive Fields : Type → Type → Type 1
  | nil : Fields Unit Unit
  | cons {τ ρ σ : Type} (name : String) (field : Field τ) (rest : Fields ρ σ) :
      Fields (τ × ρ) (Option τ × σ)

inductive Variants : Type → Type 1
  | nil : Variants Empty
  | cons {α σ : Type} (name : String) (record : Record α) (rest : Variants σ) : Variants (α ⊕ σ)

end

namespace Fields

def blank : {ρ σ : Type} → Fields ρ σ → σ
  | _, _, .nil => ()
  | _, _, .cons _ _ rest => (none, rest.blank)

def arity : {ρ σ : Type} → Fields ρ σ → Nat
  | _, _, .nil => 0
  | _, _, .cons _ _ rest => rest.arity + 1

def names : {ρ σ : Type} → Fields ρ σ → List String
  | _, _, .nil => []
  | _, _, .cons name _ rest => name :: rest.names

end Fields

def Variants.names : {σ : Type} → Variants σ → List String
  | _, .nil => []
  | _, .cons name _ rest => name :: rest.names

/-- The value of a field whose member is absent, if there is one. -/
def Field.absent? : {τ : Type} → Field τ → Option τ
  | _, .required _ => none
  | _, .optional _ => some none
  | _, .defaulted _ value _ => some value

/-- The value of a field when a record written as a list ends before it, if there is one. -/
def Field.beyondEnd? : {τ : Type} → Field τ → Option τ
  | _, .required _ => none
  | _, .optional _ => none
  | _, .defaulted _ value _ => some value

end SwaggerLift
