import SwaggerLift.Convert.Error
import SwaggerLift.Text.Capital
/-!
Names of schemas. A reference and a definition key lead to the same name if they agree after their
last slash or point: the rest behind it, with its first character in capital form.
-/

namespace SwaggerLift

/-- What follows the last occurrence of a character: everything if it does not occur. -/
def afterLast (separator : Char) (text : List Char) : List Char :=
  (text.reverse.takeWhile (· != separator)).reverse

def leaf (reference : List Char) : List Char := afterLast '.' (afterLast '/' reference)

def schemaName (reference : String) : Except ConversionError String :=
  match leaf reference.toList with
  | [] => .error (.emptyName reference)
  | first :: rest => .ok (String.ofList (Text.capital first ++ rest))

def schemasPath : String := "#/components/schemas/"

def schemaReference (reference : String) : Except ConversionError String := do
  return schemasPath ++ (← schemaName reference)

end SwaggerLift
