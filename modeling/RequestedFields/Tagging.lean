import RequestedFields.Json
import RequestedFields.Text.Located

/-!
# Tagging payloads with a context

A resolver that fetches the rows of a field can hand something on to the resolvers of their
children: the parent record, a locale.  It **tags** what it fetched.  An object is tagged as a
whole, a list element by element; the payload itself is not touched, the context stands beside
it.  What is tagged is **borrowed** from the payload, until it is detached and owns a copy; that
makes no difference to what is read, written or compared.

For hosts that exchange plain JSON there is an **inline form**: the object with the context as its
member `__context`.

## What is here

* `Held` — a payload that is borrowed or owned.
* `Tagged`, `Tagging` — one tagged value, or the tagged elements of a list, with `detach` and
  `mapContext`.
* `tagM`, `tagWith`, `tag` — tag with the results of an action, of a function, with one context.
  The action is run once per tagged value, from first to last, and **not at all from the first value
  on that cannot be tagged**.
* `Tagged.inline`, `Json.inlineContext?` — write the inline form, read it.
-/

set_option autoImplicit false

namespace RequestedFields

/-- The member that holds the context in the inline form. -/
def contextMember : String := "__context"

/-- Why a payload cannot be tagged, or a tagged value has no inline form. -/
inductive TagError where
  /-- The payload is neither an object nor a list. -/
  | typeMismatch (found : Json.Kind)
  /-- An element of the list is neither an object nor a list. -/
  | elementTypeMismatch (index : Nat) (found : Json.Kind)
  /-- Only an object has room for a context. -/
  | notInlinable (found : Json.Kind)
  /-- The context has no JSON form, for this reason. -/
  | serialization (reason : Text.Located)
  deriving DecidableEq, Repr

/-- The error as it is shown to a user. -/
def TagError.message : TagError → String
  | .typeMismatch found =>
    "Cannot attach a context to " ++ found.phrase ++ ", expected an object or a list"
  | .elementTypeMismatch index found =>
    "Cannot attach a context to the list element at index " ++ toString index ++ ": found "
      ++ found.phrase ++ ", expected an object or a list"
  | .notInlinable found => "Only objects can carry an inline context, found " ++ found.phrase
  | .serialization reason => "Could not serialize the context: " ++ reason.text

/-- Contexts that can be written as JSON, unless that fails for some reason. -/
class EncodesJson (γ : Type) where
  encode : γ → Except String Json

instance : EncodesJson Json := ⟨.ok⟩

/-- A payload as it is held beside a context. -/
inductive Held where
  /-- It belongs to what was tagged. -/
  | borrowed (payload : Json)
  /-- It is a copy, which outlives what was tagged. -/
  | owned (payload : Json)

/-- The payload, wherever it belongs. -/
def Held.payload : Held → Json
  | .borrowed payload => payload
  | .owned payload => payload

/-- A value with a context beside it. -/
structure Tagged (γ : Type) where
  held : Held
  context : γ

/-- A tagged payload: one value, or the elements of a list. -/
inductive Tagging (γ : Type) where
  | one (item : Tagged γ)
  | many (items : List (Tagged γ))

variable {γ δ : Type}

namespace Tagged

/-- The value that is tagged. -/
def payload (t : Tagged γ) : Json := t.held.payload

/-- The context that is read from a tagged value.  It is always there, and never the one that the
payload may hold inline. -/
def context? (t : Tagged γ) : Option γ := some t.context

/-- The same value with another context. -/
def mapContext (f : γ → δ) (t : Tagged γ) : Tagged δ := ⟨t.held, f t.context⟩

/-- The same value with a copy of its payload. -/
def detach (t : Tagged γ) : Tagged γ := ⟨.owned t.payload, t.context⟩

/-- Tagged values are compared by what they hold, borrowed or not. -/
instance [BEq γ] : BEq (Tagged γ) :=
  ⟨fun a b => a.payload == b.payload && a.context == b.context⟩

end Tagged

deriving instance BEq for Tagging

/-- The context that the inline form holds. -/
def Json.inlineContext? (j : Json) : Option Json := j.member? contextMember

/-- The inline form: the object with its context as a member. -/
def Tagged.inline [EncodesJson γ] (t : Tagged γ) : Except TagError Json :=
  match t.payload with
  | .object members =>
    match EncodesJson.encode t.context with
    | .ok context => .ok (.object (Json.setMember contextMember context members))
    | .error reason => .error (.serialization (.ofText reason))
  | other => .error (.notInlinable other.kind)

namespace Tagging

/-- The tagged values, in order: as a slice, one after the other or as a list of one's own. -/
def items : Tagging γ → List (Tagged γ)
  | .one item => [item]
  | .many items => items

/-- The number of tagged values. -/
def size (t : Tagging γ) : Nat := t.items.length

/-- Nothing is tagged. -/
def isEmpty (t : Tagging γ) : Bool := t.items.isEmpty

/-- The context of the payload as a whole, which only a single value has. -/
def context? : Tagging γ → Option γ
  | .one item => item.context?
  | .many _ => none

/-- What was tagged, without the contexts. -/
def payload : Tagging γ → Json
  | .one item => item.payload
  | .many items => .list (items.map Tagged.payload)

/-- The same tagging with other contexts. -/
def mapContext (f : γ → δ) : Tagging γ → Tagging δ
  | .one item => .one (item.mapContext f)
  | .many items => .many (items.map (Tagged.mapContext f))

/-- The same tagging with copies of all payloads. -/
def detach : Tagging γ → Tagging γ
  | .one item => .one item.detach
  | .many items => .many (items.map Tagged.detach)

/-- The tagged values as the elements of a list. -/
def toMany (t : Tagging γ) : Tagging γ := .many t.items

end Tagging

/-! ## Tagging -/

section Monadic

variable {m : Type → Type} [Monad m]

/-- Tag the elements of a list from the element with number `index` on. -/
def tagElements (context : Json → m γ) :
    (index : Nat) → List Json → m (Except TagError (List (Tagged γ)))
  | _, [] => pure (.ok [])
  | index, element :: rest =>
    if element.isContainer then do
      let c ← context element
      let items ← tagElements context (index + 1) rest
      pure (items.map (⟨.borrowed element, c⟩ :: ·))
    else
      pure (.error (.elementTypeMismatch index element.kind))

/-- Tag a payload with the results of an action. -/
def tagM (context : Json → m γ) (payload : Json) : m (Except TagError (Tagging γ)) :=
  match payload with
  | .object _ => do
    let c ← context payload
    pure (.ok (.one ⟨.borrowed payload, c⟩))
  | .list elements => do
    let items ← tagElements context 0 elements
    pure (items.map .many)
  | other => pure (.error (.typeMismatch other.kind))

end Monadic

/-- Tag a payload, each value with what a function makes of it. -/
def tagWith (context : Json → γ) (payload : Json) : Except TagError (Tagging γ) :=
  Id.run (tagM (fun j => pure (context j)) payload)

/-- Tag a payload, each value with the same context. -/
def tag (context : γ) (payload : Json) : Except TagError (Tagging γ) :=
  tagWith (fun _ => context) payload

/-- A value of any kind, tagged without being looked at. -/
def Tagging.ofValue (payload : Json) (context : γ) : Tagging γ := .one ⟨.owned payload, context⟩

end RequestedFields
