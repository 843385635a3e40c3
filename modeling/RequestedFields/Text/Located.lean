import RequestedFields.Text.Digits

/-!
# Messages that end in a place

A message about a text may end in the place it is about: `… at line 3 column 4`.  Such a message is
kept as what it says and where, and written again from the two.  So the numbers lose their leading
zeros; and as lines are counted from 1, **a place on line 0 is no place** and is not written.

The place is looked for after the last ` at line `, and has to be all that follows.  What does not
read as a place, numbers of more than 64 bits included, is part of the message.
-/

set_option autoImplicit false

namespace RequestedFields.Text

/-- What stands before and after the last occurrence of a word. -/
def splitLast? (word : List Char) : List Char → Option (List Char × List Char)
  | [] => none
  | c :: rest =>
    match splitLast? word rest with
    | some (before, after) => some (c :: before, after)
    | none => if word.isPrefixOf (c :: rest) then some ([], (c :: rest).drop word.length) else none

/-- The number that some digits mean, if there are any and it has no more than 64 bits. -/
def number? (digits : List Char) : Option Nat :=
  if isDigits digits && decimalValue digits < 0x10000000000000000 then some (decimalValue digits)
  else none

/-- A message, and the line and column it is about. -/
structure Located where
  message : String
  place? : Option (Nat × Nat)
  deriving DecidableEq, Repr

namespace Located

/-- The line and the column of a place that is written `3 column 4`. -/
def placeOf? (cs : List Char) : Option (Nat × Nat) :=
  let column := " column ".toList
  let rest := cs.dropWhile Char.isDigit
  if column.isPrefixOf rest then
    match number? (cs.takeWhile Char.isDigit), number? (rest.drop column.length) with
    | some line, some column => some (line, column)
    | _, _ => none
  else none

/-- Take the place off the end of a message. -/
def ofText (s : String) : Located :=
  match splitLast? " at line ".toList s.toList with
  | none => ⟨s, none⟩
  | some (before, after) =>
    match placeOf? after with
    | none => ⟨s, none⟩
    | some (line, column) =>
      ⟨String.ofList before, if line = 0 then none else some (line, column)⟩

/-- The message with its place. -/
def text (l : Located) : String :=
  match l.place? with
  | none => l.message
  | some (line, column) =>
    l.message ++ " at line " ++ toString line ++ " column " ++ toString column

end Located

end RequestedFields.Text
