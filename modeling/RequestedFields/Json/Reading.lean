import RequestedFields.Decimal.Binary64
import RequestedFields.Json
import RequestedFields.Reader
import RequestedFields.Text.Digits

/-!
# Reading JSON

A JSON text is read into a `Json` value, with the members of every object in the order of the text;
a member that is written twice keeps its first place and takes its last value.

**Integers of 64 bits, with or without a sign, are integers**; every other number is a decimal of
the precision of 64-bit floating point, and so is a zero with a minus.
-/

set_option autoImplicit false

namespace RequestedFields.Json.Reading

open Reader

/-- The blanks of JSON. -/
def isBlank (c : Char) : Bool := c = ' ' || c = '\t' || c = '\n' || c = '\r'

/-- Blanks, as many as there are. -/
def blanks : Reader Char Unit := fun cs => .ok ((), cs.dropWhile isBlank)

/-! ## Strings -/

/-- The character that an escape of one letter stands for. -/
def escaped? : Char → Option Char
  | '"' => some '"'
  | '\\' => some '\\'
  | '/' => some '/'
  | 'b' => some '\x08'
  | 'f' => some '\x0c'
  | 'n' => some '\n'
  | 'r' => some '\r'
  | 't' => some '\t'
  | _ => none

/-- The character of a number that is no surrogate. -/
def character? (n : Nat) : Option Char :=
  if n < 0xD800 ∨ 0xDFFF < n then some (Char.ofNat n) else none

/-- The character of a pair of surrogates. -/
def ofSurrogates? (high low : Nat) : Option Char :=
  if 0xD800 ≤ high ∧ high ≤ 0xDBFF ∧ 0xDC00 ≤ low ∧ low ≤ 0xDFFF then
    some (Char.ofNat (0x10000 + (high - 0xD800) * 0x400 + (low - 0xDC00)))
  else none

/-- The characters of a string up to its closing quote, which is taken too. -/
def characters : Reader Char (List Char)
  | [] => .error []
  | '"' :: rest => .ok ([], rest)
  | '\\' :: 'u' :: a :: b :: c :: d :: rest =>
    match (Text.hexValue? [a, b, c, d]).bind character? with
    | some x => (characters rest).map (fun r => (x :: r.1, r.2))
    | none =>
      match rest with
      | '\\' :: 'u' :: e :: f :: g :: h :: after =>
        match Text.hexValue? [a, b, c, d], Text.hexValue? [e, f, g, h] with
        | some high, some low =>
          match ofSurrogates? high low with
          | some x => (characters after).map (fun r => (x :: r.1, r.2))
          | none => .error rest
        | _, _ => .error rest
      | _ => .error rest
  | '\\' :: c :: rest =>
    match escaped? c with
    | some x => (characters rest).map (fun r => (x :: r.1, r.2))
    | none => .error (c :: rest)
  | c :: rest =>
    if c < ' ' then .error (c :: rest) else (characters rest).map (fun r => (c :: r.1, r.2))

/-- A string. -/
def text : Reader Char String := do
  expect '"'
  let cs ← characters
  return String.ofList cs

/-! ## Numbers -/

/-- The characters that a number can have. -/
def isNumberPart (c : Char) : Bool := c.isDigit || c ∈ ['-', '+', '.', 'e', 'E']

/-- An integer of 64 bits, with or without a sign. -/
def integer? (cs : List Char) : Option Int :=
  let (negative, digits) := Text.unsigned cs
  let n := Text.decimalValue digits
  if !Text.isWhole digits then none
  else if negative then (if 0 < n ∧ n ≤ 0x8000000000000000 then some (-(n : Int)) else none)
  else (if n < 0x10000000000000000 then some (n : Int) else none)

/-- What may follow the letter of an exponent: digits, with or without a sign. -/
def isExponent : List Char → Bool
  | '+' :: rest => Text.isDigits rest
  | '-' :: rest => Text.isDigits rest
  | digits => Text.isDigits digits

/-- A number. -/
def number : Reader Char Number := fun cs =>
  let lexeme := cs.takeWhile isNumberPart
  let rest := cs.dropWhile isNumberPart
  match integer? lexeme with
  | some value => .ok (.integer value, rest)
  | none =>
    if Text.isDecimal isExponent lexeme then
      match Decimal.rounded? (.read lexeme) with
      | some value => .ok (.decimal value, rest)
      | none => .error cs
    else .error cs

/-! ## Values -/

/-- A word that stands for a value. -/
def literal (word : String) (value : Json) : Reader Char Json := do
  word.toList.forM expect
  return value

/-- Items with commas between them, up to the symbol `close`, which is taken too. -/
def separated {α : Type} (close : Char) (item : Reader Char α) : Reader Char (List α) := do
  blanks
  if (← peek) = some close then
    skip
    return []
  else
    let first ← item
    let rest ← repeatWhile (· = ',') do
      skip
      item
    expect close
    return first :: rest

/-- A value with the blanks around it, nested at most that deep. -/
def value : (depth : Nat) → Reader Char Json
  | 0 => misfit
  | depth + 1 => do
    blanks
    let v ← match ← peek with
      | some '"' => .string <$> text
      | some '[' => do
        skip
        .list <$> separated ']' (value depth)
      | some '\x7b' => do
        skip
        let members ← separated '\x7d' do
          blanks
          let name ← text
          blanks
          expect ':'
          let content ← value depth
          pure (name, content)
        pure (.object (members.foldl (fun ms m => setMember m.1 m.2 ms) []))
      | some 't' => literal "true" (.boolean true)
      | some 'f' => literal "false" (.boolean false)
      | some 'n' => literal "null" .null
      | _ => .number <$> number
    blanks
    return v

end Reading

/-- Read a JSON text.  No value nests deeper than the text is long. -/
def read? (source : String) : Option Json :=
  let cs := source.toList
  match (Reading.value (cs.length + 1)).run cs with
  | .ok (v, []) => some v
  | _ => none

end RequestedFields.Json
