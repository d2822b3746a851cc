/-!
Reading a JSON text stops at the first place where the text ends too early or is not well formed.
Some values are stricter when they are wanted than when they are passed over: a wanted string holds
no lone surrogate, a wanted number is in range. A `Reading` carries both answers.
-/

namespace SwaggerLift.Json

/-- Why reading of a text stops: it ended too early, or it is not well formed. -/
inductive Cut where
  | ended
  | malformed
  deriving DecidableEq, Repr

/-- What a value reads as if it is wanted, and what stops the reading if it is passed over. -/
structure Reading (α : Type) where
  wanted : Except Cut α
  passed : Option Cut

namespace Reading

variable {α : Type}

def clean (a : α) : Reading α := ⟨.ok a, none⟩

def broken (cut : Cut) : Reading α := ⟨.error cut, some cut⟩

end Reading

end SwaggerLift.Json
