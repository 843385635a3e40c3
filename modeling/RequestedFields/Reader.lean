/-!
# Readers

A reader takes what it needs from the front of a list of symbols and leaves the rest.  If it meets
a symbol that does not fit, it fails **with the symbols from that one on**, which is all that is
needed to say where the reading stopped.  There is no going back: the next symbol alone decides
what is read.

The query grammar is read from tokens and JSON from characters, both with these readers.
-/

set_option autoImplicit false

namespace RequestedFields

/-- A reader of `α` from symbols `σ`; it fails with the symbols that it could not read. -/
abbrev Reader (σ : Type) := StateT (List σ) (Except (List σ))

namespace Reader

variable {σ α : Type}

/-- The next symbol does not fit. -/
def misfit : Reader σ α := fun symbols => .error symbols

/-- The next symbol, which is left where it is. -/
def peek : Reader σ (Option σ) := fun symbols => .ok (symbols.head?, symbols)

/-- Take the next symbol, whatever it is. -/
def skip : Reader σ Unit
  | [] => .error []
  | _ :: rest => .ok ((), rest)

/-- Take the next symbol, which has to be `s`. -/
def expect [DecidableEq σ] (s : σ) : Reader σ Unit
  | [] => .error []
  | t :: rest => if t = s then .ok ((), rest) else .error (t :: rest)

/-- Read items as long as the next symbol is one that an item can begin with.  An item that takes
no symbol would be read for ever, so it does not fit. -/
def repeatWhile (more : σ → Bool) (item : Reader σ α) : Reader σ (List α)
  | [] => .ok ([], [])
  | s :: symbols =>
    if more s then
      match item (s :: symbols) with
      | .error stuck => .error stuck
      | .ok (a, rest) =>
        if rest.length < (s :: symbols).length then
          match repeatWhile more item rest with
          | .error stuck => .error stuck
          | .ok (items, last) => .ok (a :: items, last)
        else .error (s :: symbols)
    else .ok ([], s :: symbols)
termination_by symbols => symbols.length
decreasing_by assumption

/-- One item or more, up to the symbol `close`, which is taken too. -/
def someUntil [DecidableEq σ] (close : σ) (item : Reader σ α) : Reader σ (List α) := do
  let first ← item
  let rest ← repeatWhile (· ≠ close) item
  expect close
  return first :: rest

/-- Items up to the symbol `close`, which is taken too. -/
def manyUntil [DecidableEq σ] (close : σ) (item : Reader σ α) : Reader σ (List α) := do
  let items ← repeatWhile (· ≠ close) item
  expect close
  return items

end Reader

end RequestedFields
