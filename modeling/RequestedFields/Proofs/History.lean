import RequestedFields.Document
import RequestedFields.Proofs.Tables

/-!
# Histories

What a resolver is told is put together change by change.  It starts from nothing, from lists, or
from the text of a query; field nodes are added and fragments are defined, some of them again; and
at any time it can be started anew.  **None of the way can be seen in the result**: it is what the
lists of all that was given since the last start make at once, down to the order of the names.

* `Change`, `ResolverInfo.after` — the changes, and what is known after some of them.
* `Given`, `Given.after` — what was given since the last start, as plain lists in which a name may
  stand any number of times.
* `ResolverInfo.IsNormal` — what the lists say about the result: which names it has and in which
  order, which definition each of them has, and which field nodes there are.
* `toInfo_change`, `after_eq_toInfo` — one change, and all of them.
* `isNormal_after` — **every history leads to the normal form.**
-/

set_option autoImplicit false

namespace RequestedFields

/-- A change of what a resolver is told. -/
inductive Change where
  /-- Nothing is known any more. -/
  | clear
  /-- What is known are these field nodes and these definitions. -/
  | start (fieldNodes : List Field) (definitions : List Fragment)
  /-- What is known is what this text tells, if it tells anything. -/
  | load (source : String) (operation : Option String) (path : List String)
  /-- There is one more field node. -/
  | addFieldNode (f : Field)
  /-- A fragment is defined. -/
  | define (fragment : Fragment)

/-! ## What is known -/

namespace ResolverInfo

/-- What is known after a change. -/
def change (info : ResolverInfo) : Change → ResolverInfo
  | .clear => .empty
  | .start fieldNodes definitions => .ofLists fieldNodes definitions
  | .load source operation path =>
    match (resolveText source operation path).outcome with
    | .ok loaded => loaded
    | .error _ => info
  | .addFieldNode f => info.addFieldNode f
  | .define fragment => info.define fragment

/-- What is known after some changes, from nothing on. -/
def after (changes : List Change) : ResolverInfo := changes.foldl change .empty

end ResolverInfo

/-! ## What was given -/

/-- Field nodes and definitions, in the order in which they were given and as often as they were
given. -/
structure Given where
  fieldNodes : List Field
  definitions : List Fragment

namespace Given

/-- All of it told at once. -/
def toInfo (given : Given) : ResolverInfo := .ofLists given.fieldNodes given.definitions

/-- What the text of a query gives: the nodes that the path leads to, and all fragment definitions
in the order of the text. -/
def ofText (source : String) (operation : Option String) (path : List String) :
    Except DocumentError Given := do
  let d ← Document.read source
  let root ← d.selectOperation operation
  let nodes ← (PathWalk.ofRoot (.ofList d.fragments) root path).outcome.mapError DocumentError.path
  return ⟨nodes, d.fragments⟩

/-- What was given up to and with a change, since the last start. -/
def change (given : Given) : Change → Given
  | .clear => ⟨[], []⟩
  | .start fieldNodes definitions => ⟨fieldNodes, definitions⟩
  | .load source operation path =>
    match ofText source operation path with
    | .ok loaded => loaded
    | .error _ => given
  | .addFieldNode f => ⟨given.fieldNodes ++ [f], given.definitions⟩
  | .define fragment => ⟨given.fieldNodes, given.definitions ++ [fragment]⟩

/-- What was given by some changes, since the last start. -/
def after (changes : List Change) : Given := changes.foldl change ⟨[], []⟩

end Given

/-- A definition with its name beside it. -/
def Fragment.named (fragment : Fragment) : String × Fragment := (fragment.name, fragment)

/-- Definitions by names that are kept apart from them. -/
abbrev NamedTable := KeyedList (Prod.fst : String × Fragment → String)

/-- What is known is told by what was given. -/
structure ResolverInfo.IsNormal (info : ResolverInfo) (given : Given) : Prop where
  /-- The field nodes are those that were given, in order. -/
  fieldNodes_eq : info.fieldNodes = given.fieldNodes
  /-- No name is in the table twice. -/
  nodup : info.fragments.keys.Nodup
  /-- What is found under a name is a definition of that name. -/
  name_eq {name : String} {fragment : Fragment} (h : info.fragment? name = some fragment) :
    fragment.name = name
  /-- If the names were kept apart from the definitions, every definition would still stand beside
  its own name. -/
  pairs_eq : (KeyedList.ofList (given.definitions.map Fragment.named) : NamedTable).toList
    = info.fragments.toList.map Fragment.named
  /-- The names stand in the order in which they were given first. -/
  names_eq : info.fragments.keys = (given.definitions.map Fragment.name).eraseDups
  /-- A name has the last of the definitions that were given for it. -/
  fragment?_eq (name : String) :
    info.fragment? name = (given.definitions.filter fun fragment ↦ fragment.name = name).getLast?
  /-- All of it could have been told at once. -/
  eq_ofLists : info = .ofLists given.fieldNodes given.definitions

/-! ## Every history leads to the normal form -/

/-- Told at once, what is known is told by the lists. -/
theorem Given.isNormal_toInfo (given : Given) : given.toInfo.IsNormal given where
  fieldNodes_eq := rfl
  nodup := given.toInfo.fragments.nodup
  name_eq h := KeyedList.key_of_find? h
  pairs_eq := by
    have hname (fragment : Fragment) :
        fragment.named.1 = Function.Embedding.refl String fragment.name := rfl
    have hmap := KeyedList.map_insertAll (.refl String) Fragment.named hname
      (.empty : FragmentTable) given.definitions
    exact congrArg KeyedList.toList hmap.symm
  names_eq := KeyedList.keys_ofList given.definitions
  fragment?_eq name := KeyedList.find?_ofList given.definitions name
  eq_ofLists := rfl

/-- **A text tells what it gives, all at once**, or the error is the same. -/
theorem outcome_resolveText (source : String) (operation : Option String) (path : List String) :
    (resolveText source operation path).outcome
      = (Given.ofText source operation path).map Given.toInfo := by
  cases hread : Document.read source with
  | error e =>
    rw [resolveText, Given.ofText, hread]
    rfl
  | ok d =>
    cases hselect : d.selectOperation operation with
    | error e =>
      simp only [resolveText, Document.resolve, Given.ofText, hread, hselect, bind, Except.bind]
      rfl
    | ok root =>
      rw [resolveText_of_read hread hselect, Document.outcome_resolvePath]
      cases hwalk : (PathWalk.ofRoot (.ofList d.fragments) root path).outcome <;>
        simp only [Given.ofText, hread, hselect, hwalk, bind, Except.bind] <;> rfl

/-- **One change**: what is known goes on to be what was given, told at once. -/
theorem toInfo_change (given : Given) (c : Change) :
    given.toInfo.change c = (given.change c).toInfo := by
  cases c with
  | clear => rfl
  | start fieldNodes definitions => rfl
  | load source operation path =>
    rw [ResolverInfo.change, Given.change, outcome_resolveText]
    cases Given.ofText source operation path <;> rfl
  | addFieldNode f => rfl
  | define fragment =>
    have htable : (KeyedList.ofList (given.definitions ++ [fragment]) : FragmentTable)
        = (KeyedList.ofList given.definitions).insert fragment :=
      KeyedList.insertAll_append .empty given.definitions [fragment]
    rw [ResolverInfo.change, Given.change, Given.toInfo, Given.toInfo, ResolverInfo.ofLists,
      ResolverInfo.ofLists, htable]
    rfl

/-- **All changes**, one after the other. -/
theorem after_eq_toInfo (changes : List Change) :
    ResolverInfo.after changes = (Given.after changes).toInfo := by
  have hfold : ∀ given : Given, changes.foldl ResolverInfo.change given.toInfo
      = (changes.foldl Given.change given).toInfo := by
    induction changes with
    | nil => exact fun _ ↦ rfl
    | cons c changes ih =>
      intro given
      rw [List.foldl_cons, List.foldl_cons, toInfo_change, ih]
  exact hfold ⟨[], []⟩

/-- **Every history leads to the normal form**: the changes may come in any order, start anew at any
time and define a name as often as they like.  What a text tells is the normal form of the nodes
that the path leads to and of the definitions of the document. -/
theorem isNormal_after :
    (∀ changes, (ResolverInfo.after changes).IsNormal (Given.after changes)) ∧
    ∀ source operation path, (resolveText source operation path).outcome
      = (Given.ofText source operation path).map fun given ↦
          .ofLists given.fieldNodes given.definitions := by
  refine ⟨fun changes ↦ ?_, outcome_resolveText⟩
  rw [after_eq_toInfo]
  exact (Given.after changes).isNormal_toInfo

end RequestedFields
