import SwaggerLift.Text.Hex
import SwaggerLift.Text.Hidden
/-!
A text as messages quote it: between double quotes, with a backslash before quotes and backslashes,
short escapes for the common controls, and code points for characters that would not show.
-/

namespace SwaggerLift.Text

def quotedChar (c : Char) : List Char :=
  if c = '"' then ['\\', '"']
  else if c = '\\' then ['\\', '\\']
  else if c = '\t' then ['\\', 't']
  else if c = '\r' then ['\\', 'r']
  else if c = '\n' then ['\\', 'n']
  else if c.toNat = 0 then ['\\', '0']
  else if isHidden c then '\\' :: 'u' :: '\x7b' :: hexDigits c.toNat ++ ['\x7d']
  else [c]

def quoted (s : String) : String :=
  String.ofList ('"' :: s.toList.flatMap quotedChar ++ ['"'])

end SwaggerLift.Text
