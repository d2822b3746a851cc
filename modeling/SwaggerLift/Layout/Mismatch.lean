import SwaggerLift.Decimal.Spelling
import SwaggerLift.Text.Quoted
/-!
What can be wrong with the shape of a document whose text is well formed: something stands where
another thing is wanted, a member is missing or repeated, a name is not among the known ones. Each
case is a cause of its own; `Mismatch.message` words it. The two text formats word null and
fractions differently.
-/

namespace SwaggerLift

inductive Found where
  | null
  | flag (b : Bool)
  | whole (n : Int)
  /-- A whole number beyond 64 bits. -/
  | wide (n : Int)
  | float (x : Float)
  | text (s : String)
  | list
  | mapping
  | tagged

inductive Wanted where
  | text
  | flag
  | list
  | mapping
  | record (title : String)
  | union (title : String)
  | fieldName
  | variantName
  | textKey
  | verbatim
  | anything
  | tagOrAnything (tag : String)
  | localTag
  | empty
  | whole
  | float
  | null

inductive Mismatch where
  | missingField (name : String)
  | duplicateField (name : String)
  | unknownVariant (name : String) (known : List String)
  | wrongType (found : Found) (wanted : Wanted)
  /-- A scalar that its own tag forces to be what its text is not. -/
  | wrongValue (text : String) (wanted : Wanted)
  /-- A record written as a list that ends before its fields do. -/
  | tooShort (count : Nat) (title : String) (arity : Nat)
  /-- A record written as a list that goes on after its last field. -/
  | tooLong (count : Nat) (arity : Nat)
  | numberOutOfRange
  | taggedContent

structure Wording where
  null : String
  float : Float → String

def plural (count : Nat) (one many : String) : String :=
  if count = 1 then one else many

def Found.describe (w : Wording) : Found → String
  | .null => w.null
  | .flag b => s!"boolean `{b}`"
  | .whole n => s!"integer `{n}`"
  | .wide n => s!"integer `{n}` as " ++ if n < 0 then "i128" else "u128"
  | .float x => s!"floating point `{w.float x}`"
  | .text s => s!"string {Text.quoted s}"
  | .list => "sequence"
  | .mapping => "map"
  | .tagged => "enum"

def Wanted.describe : Wanted → String
  | .text => "a string"
  | .flag => "a boolean"
  | .list => "a sequence"
  | .mapping => "a map"
  | .record title => s!"struct {title}"
  | .union title => s!"internally tagged enum {title}"
  | .fieldName => "field identifier"
  | .variantName => "variant identifier"
  | .textKey => "a string key"
  | .verbatim => "any valid JSON value"
  | .anything => "any value"
  | .tagOrAnything tag => s!"a type tag `{tag}` or any other value"
  | .localTag => "a YAML tag starting with '!'"
  | .empty => "unit"
  | .whole => "an integer"
  | .float => "a float"
  | .null => "null"

/-- A choice of names: one, two joined by a word, or a row. -/
def describeKnown : List String → String
  | [] => "there are no variants"
  | [only] => s!"expected `{only}`"
  | [one, other] => s!"expected `{one}` or `{other}`"
  | names => "expected one of " ++ ", ".intercalate (names.map fun name => s!"`{name}`")

def Mismatch.message (w : Wording) : Mismatch → String
  | .missingField name => s!"missing field `{name}`"
  | .duplicateField name => s!"duplicate field `{name}`"
  | .unknownVariant name known => s!"unknown variant `{name}`, {describeKnown known}"
  | .wrongType found wanted => s!"invalid type: {found.describe w}, expected {wanted.describe}"
  | .wrongValue text wanted =>
      s!"invalid value: string {Text.quoted text}, expected {wanted.describe}"
  | .tooShort count title arity =>
      s!"invalid length {count}, expected struct {title} with {arity} " ++
        plural arity "element" "elements"
  | .tooLong count arity =>
      s!"invalid length {count}, expected {arity} " ++ plural arity "element" "elements" ++
        " in sequence"
  | .numberOutOfRange => "JSON number out of range"
  | .taggedContent => "untagged and internally tagged enums do not support enum input"

class Refusing (m : Type → Type) where
  refuse : {α : Type} → Mismatch → m α

export Refusing (refuse)

instance : Refusing (Except Mismatch) := ⟨throw⟩

end SwaggerLift
