import RequestedFields.Traversal

/-!
# Options of a collection

Two things can be chosen when the fields of a selection set are collected: **what a field is
collected under**, its schema name or its response key, and **what is done with inline fragments**.
Without a choice, fields go by name and inline fragments are skipped.
-/

set_option autoImplicit false

namespace RequestedFields

/-- What a field is collected under. -/
inductive KeyChoice where
  /-- Its schema name, whatever its alias. -/
  | name
  /-- Its response key. -/
  | responseKey
  deriving DecidableEq, Repr

/-- The key of a field. -/
def KeyChoice.of : KeyChoice → Field → String
  | .name, f => f.name
  | .responseKey, f => f.responseKey

/-- How the fields of a selection set are collected. -/
structure CollectOptions where
  key : KeyChoice := .name
  inlineFragments : InlineMode := .skip
  deriving DecidableEq, Repr

namespace CollectOptions

/-- Fields by name, inline fragments skipped. -/
def default : CollectOptions := {}

instance : Inhabited CollectOptions := ⟨default⟩

/-- Fields by response key and inline fragments expanded: how a response is laid out. -/
def response : CollectOptions := ⟨.responseKey, .expand⟩

/-- The same options with another key. -/
def withKey (o : CollectOptions) (key : KeyChoice) : CollectOptions := { o with key := key }

/-- The same options with another treatment of inline fragments. -/
def withInlineFragments (o : CollectOptions) (mode : InlineMode) : CollectOptions :=
  { o with inlineFragments := mode }

end CollectOptions

/-! ## The written names of the choices -/

/-- The name of a choice of key. -/
def KeyChoice.text : KeyChoice → String
  | .name => "name"
  | .responseKey => "response_key"

/-- The choice of a given name. -/
def KeyChoice.ofText? : String → Option KeyChoice
  | "name" => some .name
  | "response_key" => some .responseKey
  | _ => none

/-- The name of a treatment of inline fragments. -/
def InlineMode.text : InlineMode → String
  | .skip => "skip"
  | .expand => "expand"

/-- The treatment of inline fragments of a given name. -/
def InlineMode.ofText? : String → Option InlineMode
  | "skip" => some .skip
  | "expand" => some .expand
  | _ => none

theorem KeyChoice.ofText?_eq_some_iff {s : String} {k : KeyChoice} :
    KeyChoice.ofText? s = some k ↔ s = k.text := by
  constructor
  · intro h
    unfold KeyChoice.ofText? at h
    split at h <;> first | (injection h with h; subst h; rfl) | cases h
  · rintro rfl
    cases k <;> rfl

theorem InlineMode.ofText?_eq_some_iff {s : String} {m : InlineMode} :
    InlineMode.ofText? s = some m ↔ s = m.text := by
  constructor
  · intro h
    unfold InlineMode.ofText? at h
    split at h <;> first | (injection h with h; subst h; rfl) | cases h
  · rintro rfl
    cases m <;> rfl

end RequestedFields
