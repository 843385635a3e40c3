import RequestedFields.KeyedList
import RequestedFields.Selection
import RequestedFields.Traversal

/-!
# What a resolver knows

While a field is being resolved, its resolver is told two things about the query: **every place
where the query selects the field**, in query order, and **the fragments of the document**, which
the selections below may spread.

The fragments are a keyed list, so defining a name again replaces the definition and keeps the
place of the name.  Two resolvers are told the same (`ResolverInfo.same`) if the field nodes agree
one by one and every name has the same definition; in which order the names were defined does not
count.
-/

set_option autoImplicit false

namespace RequestedFields

/-- What is known about the field being resolved. -/
structure ResolverInfo where
  /-- The nodes of the query that select the field, in query order. -/
  fieldNodes : List Field
  /-- The fragments defined by the document. -/
  fragments : FragmentTable

namespace ResolverInfo

/-- Nothing is known. -/
def empty : ResolverInfo := ⟨[], .empty⟩

instance : EmptyCollection ResolverInfo := ⟨empty⟩

instance : Inhabited ResolverInfo := ⟨empty⟩

/-- The given field nodes, and the given definitions one after the other. -/
def ofLists (fieldNodes : List Field) (definitions : List Fragment) : ResolverInfo :=
  ⟨fieldNodes, .ofList definitions⟩

/-- One more field node, after the others. -/
def addFieldNode (info : ResolverInfo) (f : Field) : ResolverInfo :=
  { info with fieldNodes := info.fieldNodes ++ [f] }

/-- Define a fragment, in place of an earlier definition of that name if there is one. -/
def define (info : ResolverInfo) (fragment : Fragment) : ResolverInfo :=
  { info with fragments := info.fragments.insert fragment }

/-- The definition of a name. -/
def fragment? (info : ResolverInfo) (name : String) : Option Fragment := info.fragments.find? name

/-- The same field nodes in the same order, and the same definition for every name. -/
def same (a b : ResolverInfo) : Bool :=
  a.fieldNodes == b.fieldNodes && a.fragments.agrees b.fragments

theorem fragment?_define (info : ResolverInfo) (fragment : Fragment) (name : String) :
    (info.define fragment).fragment? name
      = if name = fragment.name then some fragment else info.fragment? name :=
  KeyedList.find?_insert info.fragments fragment name

@[simp] theorem fragment?_addFieldNode (info : ResolverInfo) (f : Field) (name : String) :
    (info.addFieldNode f).fragment? name = info.fragment? name := rfl

end ResolverInfo

end RequestedFields
