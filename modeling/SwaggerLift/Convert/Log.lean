import SwaggerLift.Convert.Error
import SwaggerLift.Text.Capital
/-!
The log of a conversion: what it did, in order, kept beside its result. A failed conversion keeps
the log up to its failure.
-/

namespace SwaggerLift

inductive LogRecord where
  | mapping (method path : String)
  | failed (method path : String) (error : ConversionError)
  | overwritten (key name : String)
  | converted (paths operations schemas : Nat)
  deriving DecidableEq

def LogRecord.line : LogRecord → String
  -- Methods are shown in capitals.
  | .mapping method path => s!"DEBUG mapping {Text.capitals method} {path}"
  | .failed method path error =>
      s!"ERROR failed to map {Text.capitals method} {path}: {error.message}"
  | .overwritten key name =>
      s!"WARN definition `{key}` overwrites an earlier definition named `{name}`"
  | .converted paths operations schemas =>
      s!"INFO converted {paths} paths, {operations} operations, {schemas} schemas"

/-- A result with the log of how it came about. -/
structure Logged (α : Type) where
  log : List LogRecord
  result : Except ConversionError α

namespace Logged

variable {α β : Type}

def ofResult (result : Except ConversionError α) : Logged α := ⟨[], result⟩

def andThen (first : Logged α) (next : α → Logged β) : Logged β :=
  match first.result with
  | .ok a => ⟨first.log ++ (next a).log, (next a).result⟩
  | .error e => ⟨first.log, .error e⟩

instance : Monad Logged where
  pure a := ofResult (.ok a)
  bind := andThen

instance : MonadLift (Except ConversionError) Logged := ⟨ofResult⟩

def note (record : LogRecord) : Logged Unit := ⟨[record], .ok ()⟩

def fail (error : ConversionError) : Logged α := ofResult (.error error)

end Logged

end SwaggerLift
