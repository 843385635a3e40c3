/-!
# Selections

What a query asks for at one place is a **selection set**: an ordered list of selections.  A
selection is a field, possibly under an alias and possibly with a selection set of its own; a
spread, which stands for the selections of a fragment defined elsewhere; or an inline fragment,
which groups selections under an optional type condition.

Arguments, directives and variables do not decide which fields are requested, so they have no
place here.

## What is here

* `Field` and `Selection`, defined together, and `Fragment`, a named definition.
* `Field.responseKey` — the name under which a field appears in the response.
* Decidable equality, which the nesting through lists keeps from being derived.  It is equality of
  everything: an absent alias differs from a present one, even from one that repeats the name.
-/

set_option autoImplicit false

namespace RequestedFields

mutual

/-- A requested field: its schema name, the alias it is given, and what is requested below it. -/
structure Field where
  alias? : Option String
  name : String
  selections : List Selection

/-- One entry of a selection set. -/
inductive Selection where
  /-- A field. -/
  | field (field : Field)
  /-- The selections of the fragment with this name. -/
  | spread (fragment : String)
  /-- Selections that apply to one type, or, with no condition, to any. -/
  | inline (typeCondition : Option String) (selections : List Selection)

end

/-- A fragment definition. -/
structure Fragment where
  name : String
  typeCondition : String
  selections : List Selection

namespace Field

/-- A field with no alias and nothing requested below it. -/
def leaf (name : String) : Field := ⟨none, name, []⟩

instance : Inhabited Field := ⟨leaf ""⟩

/-- The same field under another alias. -/
def withAlias (f : Field) (label : String) : Field := ⟨some label, f.name, f.selections⟩

/-- The same field with other selections below it. -/
def withSelections (f : Field) (selections : List Selection) : Field :=
  ⟨f.alias?, f.name, selections⟩

/-- The name under which the field appears in the response: its alias, if it has one. -/
def responseKey (f : Field) : String := f.alias?.getD f.name

/-- Nothing is requested below the field. -/
def isLeaf (f : Field) : Bool := f.selections.isEmpty

end Field

/-- The three kinds of selection. -/
inductive SelectionKind where
  | field
  | spread
  | inline
  deriving DecidableEq, Repr

/-- The kind of a selection. -/
def Selection.kind : Selection → SelectionKind
  | .field _ => .field
  | .spread _ => .spread
  | .inline _ _ => .inline

/-! ## Equality -/

mutual

/-- Equality of fields, decided member by member. -/
def Field.decEq : (f g : Field) → Decidable (f = g)
  | ⟨a, n, s⟩, ⟨b, m, t⟩ =>
    if ha : a = b then
      if hn : n = m then
        match Selection.decEqList s t with
        | isTrue hs => isTrue (by rw [ha, hn, hs])
        | isFalse hs => isFalse (by intro h; injection h with _ _ h; exact hs h)
      else isFalse (by intro h; injection h with _ h _; exact hn h)
    else isFalse (by intro h; injection h with h _ _; exact ha h)

/-- Equality of selections. -/
def Selection.decEq : (s t : Selection) → Decidable (s = t)
  | .field f, .field g =>
    match Field.decEq f g with
    | isTrue h => isTrue (by rw [h])
    | isFalse h => isFalse (by intro e; injection e with e; exact h e)
  | .spread a, .spread b =>
    if h : a = b then isTrue (by rw [h])
    else isFalse (by intro e; injection e with e; exact h e)
  | .inline a s, .inline b t =>
    if ha : a = b then
      match Selection.decEqList s t with
      | isTrue hs => isTrue (by rw [ha, hs])
      | isFalse hs => isFalse (by intro h; injection h with _ h; exact hs h)
    else isFalse (by intro h; injection h with h _; exact ha h)
  | .field _, .spread _ => isFalse (by intro h; cases h)
  | .field _, .inline _ _ => isFalse (by intro h; cases h)
  | .spread _, .field _ => isFalse (by intro h; cases h)
  | .spread _, .inline _ _ => isFalse (by intro h; cases h)
  | .inline _ _, .field _ => isFalse (by intro h; cases h)
  | .inline _ _, .spread _ => isFalse (by intro h; cases h)

/-- Equality of selection sets, entry by entry in order. -/
def Selection.decEqList : (s t : List Selection) → Decidable (s = t)
  | [], [] => isTrue rfl
  | [], _ :: _ => isFalse (by intro h; cases h)
  | _ :: _, [] => isFalse (by intro h; cases h)
  | a :: s, b :: t =>
    match Selection.decEq a b with
    | isTrue ha =>
      match Selection.decEqList s t with
      | isTrue hs => isTrue (by rw [ha, hs])
      | isFalse hs => isFalse (by intro h; injection h with _ h; exact hs h)
    | isFalse ha => isFalse (by intro h; injection h with h _; exact ha h)

end

instance : DecidableEq Field := Field.decEq

instance : DecidableEq Selection := Selection.decEq

deriving instance DecidableEq for Fragment

end RequestedFields
