/-!
# Positions in a query text

A position is a line and a column, both counted from 1.  What stands between two tokens moves the
position by rules of its own:

* a space or a comma takes one column, a tab eight;
* a byte order mark and a carriage return take none;
* a line feed begins a line;
* a comment runs from `#` to the next line feed or carriage return and *that character begins a
  line*, so a comment that ends in a carriage return and a line feed counts two;
* a comment that the text ends in takes no column.

Inside a token every character takes one column, except that a line feed begins a line.
-/

set_option autoImplicit false

namespace RequestedFields.Query

/-- A line and a column of a text, counted from 1. -/
structure Position where
  line : Nat := 1
  column : Nat := 1
  deriving DecidableEq, Repr, Inhabited

namespace Position

/-- The position as it is shown to a user. -/
def text (p : Position) : String := toString p.line ++ ":" ++ toString p.column

/-- The beginning of the next line. -/
def nextLine (p : Position) : Position := ⟨p.line + 1, 1⟩

/-- Some columns further on the same line. -/
def right (p : Position) (columns : Nat) : Position := ⟨p.line, p.column + columns⟩

/-- The position after a character of a token. -/
def next (p : Position) (c : Char) : Position := if c = '\n' then p.nextLine else p.right 1

/-- The position after the characters of a token. -/
def after (p : Position) (lexeme : List Char) : Position := lexeme.foldl next p

end Position

/-- The mark that a text may begin with to tell its encoding. -/
def byteOrderMark : Char := '\uFEFF'

/-- Pass over what may stand between two tokens: the position of the next character that belongs to
a token, and the text from there on.  In a comment, only the end of the line is looked for. -/
def skipIgnored (inComment : Bool) (p : Position) : List Char → Position × List Char
  | [] => (p, [])
  | c :: rest =>
    if inComment then
      if c = '\n' ∨ c = '\r' then skipIgnored false p.nextLine rest
      else skipIgnored true p rest
    else if c = '\n' then skipIgnored false p.nextLine rest
    else if c = '\r' ∨ c = byteOrderMark then skipIgnored false p rest
    else if c = '\t' then skipIgnored false (p.right 8) rest
    else if c = ' ' ∨ c = ',' then skipIgnored false (p.right 1) rest
    else if c = '#' then skipIgnored true p rest
    else (p, c :: rest)

/-- Passing over something leaves no more than there was. -/
theorem length_skipIgnored_le (inComment : Bool) (p : Position) (cs : List Char) :
    (skipIgnored inComment p cs).2.length ≤ cs.length := by
  induction cs generalizing inComment p with
  | nil => simp [skipIgnored]
  | cons c rest ih =>
    rw [skipIgnored]
    repeat' split
    all_goals first
      | exact Nat.le_succ_of_le (ih _ _)
      | exact Nat.le_refl _

end RequestedFields.Query
