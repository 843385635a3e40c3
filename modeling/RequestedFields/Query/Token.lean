import RequestedFields.Query.Literal
import RequestedFields.Query.Position

/-!
# Tokens of a query text

A query text is a sequence of tokens with ignored characters between them.  A token knows how it is
written (`Token.spelling`), and `Token.read` finds the one that a text begins with.

`lex` reads a text to the end, or to the first place where no token begins.  It does not fail there:
the tokens before that place may already be wrong, and then the place does not matter.

## What is here

* `Token`, `Token.spelling`.
* `Token.read c rest` — the token of a text that begins with `c`, and how many characters of `rest`
  belong to it.
* `Lexing`, `lex` — the tokens with the positions of their first characters, the position where the
  reading ended, and whether that is the end of the text.
-/

set_option autoImplicit false

namespace RequestedFields.Query

/-- A token of a query text. -/
inductive Token where
  | name (text : String)
  /-- A number, a string or a block string, as it is written. -/
  | literal (lexeme : String)
  | bang
  | dollar
  | amp
  | parenOpen
  | parenClose
  | ellipsis
  | colon
  | equals
  | atSign
  | bracketOpen
  | bracketClose
  | braceOpen
  | braceClose
  | pipe
  deriving DecidableEq, Repr

/-- The characters that a name can begin with. -/
def isNameStart (c : Char) : Bool := c.isAlpha || c = '_'

/-- The characters that a name can go on with. -/
def isNamePart (c : Char) : Bool := c.isAlphanum || c = '_'

/-- A name: a letter or an underscore, then letters, digits and underscores. -/
def isName : List Char → Bool
  | [] => false
  | c :: rest => isNameStart c && rest.all isNamePart

namespace Token

/-- The token as it is written. -/
def spelling : Token → String
  | .name text => text
  | .literal lexeme => lexeme
  | .bang => "!"
  | .dollar => "$"
  | .amp => "&"
  | .parenOpen => "("
  | .parenClose => ")"
  | .ellipsis => "..."
  | .colon => ":"
  | .equals => "="
  | .atSign => "@"
  | .bracketOpen => "["
  | .bracketClose => "]"
  | .braceOpen => "\x7b"
  | .braceClose => "\x7d"
  | .pipe => "|"

/-- The punctuators of one character. -/
def punctuator? (c : Char) : Option Token :=
  if c = '!' then some .bang
  else if c = '$' then some .dollar
  else if c = '&' then some .amp
  else if c = '(' then some .parenOpen
  else if c = ')' then some .parenClose
  else if c = ':' then some .colon
  else if c = '=' then some .equals
  else if c = '@' then some .atSign
  else if c = '[' then some .bracketOpen
  else if c = ']' then some .bracketClose
  else if c = '\x7b' then some .braceOpen
  else if c = '\x7d' then some .braceClose
  else if c = '|' then some .pipe
  else none

/-- The string or block string whose opening quote stands before `rest`, by the number of characters
of `rest` that belong to it. -/
def quotedRest? (rest : List Char) : Option Nat :=
  match rest with
  | '"' :: '"' :: body => (blockLength false body).map (· + 2)
  | _ =>
    match quotedLength rest with
    | some n => if wellEscaped (rest.take (n - 1)) then some n else none
    | none => none

/-- The token that a text begins with, whose first character is `c`, and how many of the characters
after it belong to the token. -/
def read (c : Char) (rest : List Char) : Option (Token × Nat) :=
  match punctuator? c with
  | some t => some (t, 0)
  | none =>
    if c = '.' then
      match rest with
      | '.' :: '.' :: _ => some (.ellipsis, 2)
      | _ => none
    else if c = '"' then
      (quotedRest? rest).map (fun n => (.literal (String.ofList (c :: rest.take n)), n))
    else if isNameStart c then
      let more := rest.takeWhile isNamePart
      some (.name (String.ofList (c :: more)), more.length)
    else if c = '-' ∨ c.isDigit then
      let more := rest.takeWhile (fun d => !endsNumber d)
      if isNumber (c :: more) then some (.literal (String.ofList (c :: more)), more.length)
      else none
    else none

end Token

/-- A text read into tokens. -/
structure Lexing where
  /-- The tokens, each with the position of its first character. -/
  tokens : List (Position × Token)
  /-- Where the reading ended. -/
  stop : Position
  /-- The reading ended with the text. -/
  complete : Bool

/-- Read the text that begins at a position. -/
def lexFrom (p : Position) (cs : List Char) : Lexing :=
  match _ : skipIgnored false p cs with
  | (stop, []) => ⟨[], stop, true⟩
  | (start, c :: rest) =>
    match Token.read c rest with
    | none => ⟨[], start, false⟩
    | some (token, n) =>
      let more := lexFrom (start.after (c :: rest.take n)) (rest.drop n)
      ⟨(start, token) :: more.tokens, more.stop, more.complete⟩
termination_by cs.length
decreasing_by
  have hle := length_skipIgnored_le false p cs
  rw [‹skipIgnored false p cs = _›, List.length_cons] at hle
  rw [List.length_drop]
  omega

/-- Read a text. -/
def lex (source : String) : Lexing := lexFrom {} source.toList

/-- The position of the first of the last `n` tokens, or where the reading ended if `n` is zero. -/
def Lexing.positionOf (l : Lexing) (n : Nat) : Position :=
  match l.tokens.drop (l.tokens.length - n) with
  | [] => l.stop
  | (p, _) :: _ => p

end RequestedFields.Query
