import RequestedFields.Json
import RequestedFields.Text.Quoted

/-!
# Writing JSON

A value is written on one line, without blanks, and with the members of every object in their order.
In a string, quotes, backslashes and control characters are escaped; every other character stands
for itself.
-/

set_option autoImplicit false

namespace RequestedFields.Json

/-- Four hexadecimal digits. -/
def fourDigits (n : Nat) : String :=
  let digits := Text.hexText n
  "".pushn '0' (4 - digits.length) ++ digits

/-- A character as it is written in a string. -/
def writeChar (c : Char) : String :=
  if c = '"' then "\\\""
  else if c = '\\' then "\\\\"
  else if c < ' ' then "\\u" ++ fourDigits c.toNat
  else c.toString

/-- A string. -/
def writeText (s : String) : String := "\"" ++ String.join (s.toList.map writeChar) ++ "\""

mutual

/-- A value. -/
def write : Json → String
  | .null => "null"
  | .boolean value => toString value
  | .number value => value.text
  | .string value => writeText value
  | .list elements => "[" ++ ",".intercalate (writeElements elements) ++ "]"
  | .object members => "\x7b" ++ ",".intercalate (writeMembers members) ++ "\x7d"

/-- The elements of a list. -/
def writeElements : List Json → List String
  | [] => []
  | element :: rest => write element :: writeElements rest

/-- The members of an object. -/
def writeMembers : List (String × Json) → List String
  | [] => []
  | (name, value) :: rest => (writeText name ++ ":" ++ write value) :: writeMembers rest

end

end RequestedFields.Json
