/-!
Document values: what a text in either format can hold once it is read, and what is written. Members
of an object stand in order and may repeat a name; `Value.Distinct` says that they nowhere do.
-/

namespace SwaggerLift

/-- A whole number that fits a signed or an unsigned word of 64 bits. -/
structure Whole where
  val : Int
  low : -0x8000000000000000 ≤ val
  high : val ≤ 0xFFFFFFFFFFFFFFFF
  deriving DecidableEq

namespace Whole

def ofInt? (n : Int) : Option Whole :=
  if h : -0x8000000000000000 ≤ n ∧ n ≤ 0xFFFFFFFFFFFFFFFF then some ⟨n, h.1, h.2⟩ else none

@[simp] theorem ofInt?_val (w : Whole) : ofInt? w.val = some w := by
  have h : -0x8000000000000000 ≤ w.val ∧ w.val ≤ 0xFFFFFFFFFFFFFFFF := ⟨w.low, w.high⟩
  simp only [ofInt?, dif_pos h]

instance : Inhabited Whole := ⟨⟨0, by decide, by decide⟩⟩

end Whole

/-- A number is a whole number of 64 bits or a finite binary fraction. -/
inductive Number where
  | whole (n : Whole)
  | float (x : Float) (finite : x.isFinite = true)

def Number.ofFloat? (x : Float) : Option Number :=
  if h : x.isFinite = true then some (.float x h) else none

/-- Equality as numbers of one kind: a whole number is never equal to a fraction. -/
def Number.same : Number → Number → Bool
  | .whole m, .whole n => m == n
  | .float x _, .float y _ => x == y
  | _, _ => false

inductive Value where
  | null
  | flag (b : Bool)
  | number (n : Number)
  | text (s : String)
  | list (items : List Value)
  | object (members : List (String × Value))
  deriving Inhabited

namespace Value

mutual
def Distinct : Value → Prop
  | .list items => AllDistinct items
  | .object members => (members.map Prod.fst).Nodup ∧ MembersDistinct members
  | _ => True

def AllDistinct : List Value → Prop
  | [] => True
  | value :: rest => value.Distinct ∧ AllDistinct rest

def MembersDistinct : List (String × Value) → Prop
  | [] => True
  | (_, value) :: rest => value.Distinct ∧ MembersDistinct rest
end

theorem allDistinct_iff (items : List Value) : AllDistinct items ↔ ∀ v ∈ items, v.Distinct := by
  induction items with
  | nil => simp [AllDistinct]
  | cons value rest ih => simp [AllDistinct, ih]

theorem membersDistinct_iff (members : List (String × Value)) :
    MembersDistinct members ↔ ∀ entry ∈ members, entry.2.Distinct := by
  induction members with
  | nil => simp [MembersDistinct]
  | cons first rest ih => rcases first with ⟨name, value⟩; simp [MembersDistinct, ih]

/-! Equality that leaves the order of members out of account. -/

mutual
def same : Value → Value → Bool
  | .null, .null => true
  | .flag b, .flag c => b == c
  | .number m, .number n => m.same n
  | .text s, .text t => s == t
  | .list items, .list others => sameItems items others
  | .object members, .object others => members.length == others.length && sameMembers members others
  | _, _ => false

def sameItems : List Value → List Value → Bool
  | [], [] => true
  | value :: rest, other :: others => value.same other && sameItems rest others
  | _, _ => false

def sameMembers : List (String × Value) → List (String × Value) → Bool
  | [], _ => true
  | (name, value) :: rest, others =>
      (match others.lookup name with
        | some other => value.same other
        | none => false) && sameMembers rest others
end

/-! How deeply lists and objects are nested: nothing for a scalar, one for an empty list. -/

mutual
def depth : Value → Nat
  | .list items => depthItems items + 1
  | .object members => depthMembers members + 1
  | _ => 0

def depthItems : List Value → Nat
  | [] => 0
  | value :: rest => max value.depth (depthItems rest)

def depthMembers : List (String × Value) → Nat
  | [] => 0
  | (_, value) :: rest => max value.depth (depthMembers rest)
end

end Value

end SwaggerLift
