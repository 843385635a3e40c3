import RequestedFields.Text.Digits
import RequestedFields.Text.Hidden

/-!
# Quoted text

How a text is shown inside a message: between double quotes, with a backslash before a quote and a
backslash, the usual letters for NUL, tab, line feed and carriage return, and the number of any
other character that does not show by itself.
-/

set_option autoImplicit false

namespace RequestedFields.Text

/-- A character as it is shown inside quotes. -/
def escape (c : Char) : String :=
  if c = '"' then "\\\""
  else if c = '\\' then "\\\\"
  else if c = '\x00' then "\\0"
  else if c = '\t' then "\\t"
  else if c = '\n' then "\\n"
  else if c = '\r' then "\\r"
  else if isHidden c then "\\u\x7b" ++ hexText c.toNat ++ "\x7d"
  else c.toString

/-- A text between double quotes. -/
def quoted (s : String) : String := "\"" ++ String.join (s.toList.map escape) ++ "\""

end RequestedFields.Text
