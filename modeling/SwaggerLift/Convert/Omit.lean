import SwaggerLift.Table
/-!
What is empty is left out: one rule for texts, lists, tables and values that may be absent.
-/

namespace SwaggerLift

class Emptiness (α : Type) where
  isEmpty : α → Bool

instance : Emptiness String := ⟨String.isEmpty⟩
instance {α : Type} : Emptiness (List α) := ⟨List.isEmpty⟩
instance {α : Type} : Emptiness (Table α) := ⟨Table.isEmpty⟩
instance {α : Type} [Emptiness α] : Emptiness (Option α) := ⟨fun a => a.all Emptiness.isEmpty⟩

def unlessEmpty {α : Type} [Emptiness α] (a : α) : Option α :=
  if Emptiness.isEmpty a then none else some a

def omitEmpty {α : Type} [Emptiness α] (a : Option α) : Option α := a.bind unlessEmpty

end SwaggerLift
