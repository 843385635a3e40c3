import RequestedFields.PathWalk
import RequestedFields.Proofs.Exchange

/-!
# Renaming fragments

What a fragment is called matters to nobody, as long as its spreads follow.  If every name is
replaced by another one, different names by different ones — in the definitions, in every spread at
any depth, in the fields that are already collected — then **everything comes out as before, under
the new names**: the same keys in the same order, the same nodes, the same faults.

A renaming goes on below the fields, and so it is more than an `Exchange`, for which a field is a
whole; but it is one at every level that a walk sees (`exchangeAll_renaming`).  What is particular
to it is that the selection sets of renamed nodes are the renamed selection sets of the nodes, which
carries it from one level of a path to the next.

* `renameAll`, `FragmentTable.rename`, `FieldMap.rename`, `PathError.rename`, `renameOutcome` — new
  names, in everything.
* `traverse_rename`, `PathWalk.outcome_level_rename` — one walk, and one level of a path.
* `outcomes_rename` — the result.
-/

set_option autoImplicit false

namespace RequestedFields

/-! ## New names -/

mutual

/-- A field under new names of fragments, in all that is selected below it. -/
def Field.rename (r : String → String) : Field → Field
  | ⟨label, name, selections⟩ => ⟨label, name, renameAll r selections⟩

/-- A selection under new names of fragments. -/
def Selection.rename (r : String → String) : Selection → Selection
  | .field f => .field (f.rename r)
  | .spread name => .spread (r name)
  | .inline typeCondition selections => .inline typeCondition (renameAll r selections)

/-- A selection set under new names of fragments. -/
def renameAll (r : String → String) : List Selection → List Selection
  | [] => []
  | a :: rest => a.rename r :: renameAll r rest

end

@[simp] theorem Field.selections_rename (r : String → String) (f : Field) :
    (f.rename r).selections = renameAll r f.selections := by
  cases f
  rfl

/-- A definition under new names. -/
def Fragment.rename (r : String → String) (fragment : Fragment) : Fragment :=
  ⟨r fragment.name, fragment.typeCondition, renameAll r fragment.selections⟩

/-- All definitions under new names. -/
def FragmentTable.rename (r : String ↪ String) (fragments : FragmentTable) : FragmentTable :=
  fragments.map r (Fragment.rename r) fun _ ↦ rfl

/-- What is wrong with a path, when fragments are called otherwise. -/
def PathError.rename (r : String → String) : PathError → PathError
  | .emptyPath => .emptyPath
  | .fieldNotFound path => .fieldNotFound path
  | .fragment e => .fragment (e.rename r)

/-- What following a path gives, when fragments are called otherwise. -/
def renameOutcome (r : String → String) :
    Except PathError (List Field) → Except PathError (List Field)
  | .error e => .error (e.rename r)
  | .ok nodes => .ok (nodes.map (Field.rename r))

/-! ## A renaming as an exchange -/

/-- The exchange of all names and of the fields for the renamed ones. -/
def Exchange.renaming (r : String ↪ String) : Exchange where
  name := r
  field := Field.rename r
  alias?_field f := by cases f; rfl
  name_field f := by cases f; rfl

/-- Collected fields under new names of fragments. -/
def FieldMap.rename (r : String ↪ String) (fields : FieldMap) : FieldMap :=
  fields.exchange (.renaming r)

mutual

theorem Selection.exchange_renaming (r : String ↪ String) :
    (a : Selection) → a.exchange (.renaming r) = a.rename r
  | .field _ => rfl
  | .spread _ => rfl
  | .inline typeCondition selections => by
    rw [Selection.exchange, exchangeAll_renaming r selections, Selection.rename]

/-- **What an exchange makes of a selection set is the renamed one.** -/
theorem exchangeAll_renaming (r : String ↪ String) :
    (s : List Selection) → exchangeAll (.renaming r) s = renameAll r s
  | [] => rfl
  | a :: rest => by
    rw [exchangeAll, Selection.exchange_renaming r a, exchangeAll_renaming r rest, renameAll]

end

section

variable (r : String ↪ String)

theorem FragmentTable.exchange_renaming (fragments : FragmentTable) :
    fragments.exchange (.renaming r) = fragments.rename r := by
  refine KeyedList.ext_toList (List.map_congr_left fun fragment _ ↦ ?_)
  rw [Fragment.exchange, exchangeAll_renaming, Fragment.rename]
  rfl

theorem traverse_rename (fragments : FragmentTable) (mode : InlineMode) (s : List Selection) :
    traverse (fragments.rename r) mode [] (renameAll r s)
      = (traverse fragments mode [] s).exchange (.renaming r) := by
  rw [← exchangeAll_renaming, ← FragmentTable.exchange_renaming, ← traverse_exchange, List.map_nil]

/-! ## Following a path -/

theorem traverseAll_rename (fragments : FragmentTable) (mode : InlineMode)
    (sets : List (List Selection)) :
    traverseAll (fragments.rename r) mode (sets.map (renameAll r))
      = (traverseAll fragments mode sets).exchange (.renaming r) := by
  induction sets with
  | nil => rfl
  | cons s sets ih =>
    rw [List.map_cons, traverseAll, traverseAll, ih, traverse_rename, Traversal.exchange_andThen]

theorem matchesOf_rename (key : String) (fields : List Field) :
    matchesOf key (fields.map (Field.rename r)) = (matchesOf key fields).map (Field.rename r) := by
  have hkey : ∀ f : Field, (f.rename r).responseKey = f.responseKey :=
    (Exchange.renaming r).responseKey_field
  rw [matchesOf, matchesOf, List.filter_map]
  simp only [Function.comp_def, hkey]

namespace PathWalk

theorem outcome_level_rename (fragments : FragmentTable) (walked : List String)
    (sets : List (List Selection)) (key : String) :
    (level (fragments.rename r) walked (sets.map (renameAll r)) key).outcome
      = renameOutcome r (level fragments walked sets key).outcome := by
  rw [level, level, traverseAll_rename]
  dsimp only
  rw [Traversal.fields_exchange]
  dsimp only [Traversal.exchange, Exchange.renaming]
  rw [matchesOf_rename]
  cases (traverseAll fragments .expand sets).fault with
  | some e => rfl
  | none =>
    cases matchesOf key (traverseAll fragments .expand sets).fields <;> rfl

theorem outcome_follow_rename (fragments : FragmentTable) (walked : List String)
    (sets : List (List Selection)) (key : String) (rest : List String) :
    (follow (fragments.rename r) walked (sets.map (renameAll r)) key rest).outcome
      = renameOutcome r (follow fragments walked sets key rest).outcome := by
  induction rest generalizing walked sets key with
  | nil => exact outcome_level_rename r fragments walked sets key
  | cons next rest ih =>
    rw [follow, follow]
    dsimp only
    rw [outcome_level_rename]
    cases (level fragments walked sets key).outcome with
    | error e => rfl
    | ok found =>
      have hsets : (found.map (Field.rename r)).map Field.selections
          = (found.map Field.selections).map (renameAll r) := by
        rw [List.map_map, List.map_map]
        exact List.map_congr_left fun f _ ↦ Field.selections_rename r f
      show (follow (fragments.rename r) (walked ++ [key])
          ((found.map (Field.rename r)).map Field.selections) next rest).outcome = _
      rw [hsets]
      exact ih (walked ++ [key]) (found.map Field.selections) next

end PathWalk

end

/-- **Under new names of fragments everything comes out as before**, renamed. -/
theorem outcomes_rename (r : String ↪ String) (fragments : FragmentTable) :
    (∀ options s fields,
      let c := collectInto fragments options s fields
      let renamed := collectInto (fragments.rename r) options (renameAll r s) (fields.rename r)
      renamed.fields = c.fields.rename r ∧ renamed.fields.keys = c.fields.keys ∧
        renamed.fault = c.fault.map (FragmentError.rename r)) ∧
    ∀ root path,
      (PathWalk.ofRoot (fragments.rename r) (renameAll r root) path).outcome
        = renameOutcome r (PathWalk.ofRoot fragments root path).outcome := by
  constructor
  · intro options s fields
    have h := collectInto_exchange (.renaming r) fragments options s fields
    rw [exchangeAll_renaming, FragmentTable.exchange_renaming] at h
    dsimp only
    rw [FieldMap.rename, h]
    exact ⟨rfl, FieldMap.keys_exchange _ _, rfl⟩
  · intro root path
    cases path with
    | nil => rfl
    | cons key rest => exact PathWalk.outcome_follow_rename r fragments [] [root] key rest

end RequestedFields
