import RequestedFields.Proofs.History

/-!
# Being told the same

Two resolvers are compared by counting the fragments of both and looking those of the first up in
the table of the second (`ResolverInfo.same`).  That is a comparison in one direction, and it sees
the tables with the places of their names.  Yet **nothing of the kind shows in the result**: it is
the same as asking both for every name and comparing the answers.  The reason is that no table has a
name twice (`KeyedList.agrees_iff`), so as many names, all of them found, are all names.

Together with the normal form of a history this says what two histories have to share for their
results to be the same: **the field nodes given since the last start, in order, and the last
definition of every name.**  In which order the names came in, how often they were defined and what
was known before the last start does not count.

* `ResolverInfo.equivalence_same` — being told the same is an equivalence.
* `ResolverInfo.same_change` — and whatever is changed for both alike leaves it that way.
* `Given.TellsSame`, `same_toInfo_iff` — what counts of what was given.
* `Given.tellsSame_of_perm` — definitions of different names may come in any order.
* `same_after_iff` — the comparison of two histories.
-/

set_option autoImplicit false

namespace RequestedFields

namespace ResolverInfo

/-- Being told the same is an equivalence, although it is decided from one side. -/
theorem equivalence_same : Equivalence fun a b : ResolverInfo ↦ a.same b = true where
  refl _ := same_iff.2 ⟨rfl, fun _ ↦ rfl⟩
  symm h :=
    have ⟨hnodes, hfind⟩ := same_iff.1 h
    same_iff.2 ⟨hnodes.symm, fun name ↦ (hfind name).symm⟩
  trans h h' :=
    have ⟨hnodes, hfind⟩ := same_iff.1 h
    have ⟨hnodes', hfind'⟩ := same_iff.1 h'
    same_iff.2 ⟨hnodes.trans hnodes', fun name ↦ (hfind name).trans (hfind' name)⟩

/-- **Resolvers that are told the same are told the same after any further change.** -/
theorem same_change {a b : ResolverInfo} (h : a.same b = true) (c : Change) :
    (a.change c).same (b.change c) = true := by
  obtain ⟨hnodes, hfind⟩ := same_iff.1 h
  cases c with
  | clear => exact equivalence_same.refl .empty
  | start fieldNodes definitions => exact equivalence_same.refl (.ofLists fieldNodes definitions)
  | load source operation path =>
    rw [change, change]
    cases (resolveText source operation path).outcome with
    | ok loaded => exact equivalence_same.refl loaded
    | error e => exact h
  | addFieldNode f =>
    refine same_iff.2 ⟨?_, hfind⟩
    rw [change, change, addFieldNode, addFieldNode, hnodes]
  | define fragment =>
    refine same_iff.2 ⟨hnodes, fun name ↦ ?_⟩
    rw [change, change, fragment?_define, fragment?_define, hfind name]

end ResolverInfo

/-! ## What counts of what was given -/

namespace Given

/-- The last definition that was given for a name. -/
def lastDefinition? (given : Given) (name : String) : Option Fragment :=
  (given.definitions.filter fun fragment ↦ fragment.name = name).getLast?

/-- The same field nodes in the same order, and for every name the same last definition. -/
structure TellsSame (given given' : Given) : Prop where
  fieldNodes_eq : given.fieldNodes = given'.fieldNodes
  lastDefinition?_eq (name : String) : given.lastDefinition? name = given'.lastDefinition? name

theorem fragment?_toInfo (given : Given) (name : String) :
    given.toInfo.fragment? name = given.lastDefinition? name :=
  given.isNormal_toInfo.fragment?_eq name

/-- **What is known is the same exactly if what was given tells the same.** -/
theorem same_toInfo_iff {given given' : Given} :
    given.toInfo.same given'.toInfo = true ↔ given.TellsSame given' := by
  rw [ResolverInfo.same_iff]
  constructor
  · rintro ⟨hnodes, hfind⟩
    refine ⟨hnodes, fun name ↦ ?_⟩
    rw [← fragment?_toInfo, hfind name, fragment?_toInfo]
  · rintro ⟨hnodes, hlast⟩
    refine ⟨hnodes, fun name ↦ ?_⟩
    rw [fragment?_toInfo, hlast name, fragment?_toInfo]

/-- Where no name is defined twice, a name has the one definition that is given for it. -/
theorem lastDefinition?_eq_some_iff {given : Given}
    (hnodup : (given.definitions.map Fragment.name).Nodup) {name : String} {fragment : Fragment} :
    given.lastDefinition? name = some fragment ↔
      fragment ∈ given.definitions ∧ fragment.name = name := by
  have htable : given.toInfo.fragments.toList = given.definitions :=
    KeyedList.toList_insertAll_of_nodup hnodup
  rw [← fragment?_toInfo, ResolverInfo.fragment?]
  constructor
  · intro h
    exact ⟨htable ▸ KeyedList.mem_of_find? h, KeyedList.key_of_find? h⟩
  · rintro ⟨hmem, rfl⟩
    exact KeyedList.find?_of_mem (htable.symm ▸ hmem)

/-- **Definitions of different names may come in any order.** -/
theorem tellsSame_of_perm (fieldNodes : List Field) {definitions definitions' : List Fragment}
    (hperm : definitions.Perm definitions') (hnodup : (definitions.map Fragment.name).Nodup) :
    TellsSame ⟨fieldNodes, definitions⟩ ⟨fieldNodes, definitions'⟩ where
  fieldNodes_eq := rfl
  lastDefinition?_eq name := by
    have hnodup' : (definitions'.map Fragment.name).Nodup :=
      (hperm.map Fragment.name).nodup_iff.1 hnodup
    refine Option.ext fun fragment ↦ ?_
    rw [lastDefinition?_eq_some_iff hnodup, lastDefinition?_eq_some_iff hnodup', hperm.mem_iff]

end Given

/-! ## Histories -/

/-- **Two histories are compared by their answers.**  What is known after both is the same exactly
if the field nodes are the same, one by one in order and in everything down to whether an alias or a
type condition is there at all, and every name has the same definition or none.  Of the changes
themselves only those since the last start count, and of these the field nodes in order and for
every name the last definition.  To be the same in this sense is an equivalence of histories. -/
theorem same_after_iff :
    (∀ changes changes',
      ((ResolverInfo.after changes).same (ResolverInfo.after changes') = true ↔
        (ResolverInfo.after changes).fieldNodes = (ResolverInfo.after changes').fieldNodes ∧
          ∀ name, (ResolverInfo.after changes).fragment? name
            = (ResolverInfo.after changes').fragment? name) ∧
      ((ResolverInfo.after changes).same (ResolverInfo.after changes') = true ↔
        (Given.after changes).TellsSame (Given.after changes'))) ∧
    Equivalence fun changes changes' ↦
      (ResolverInfo.after changes).same (ResolverInfo.after changes') = true := by
  refine ⟨fun changes changes' ↦ ⟨ResolverInfo.same_iff, ?_⟩,
    ResolverInfo.equivalence_same.comap ResolverInfo.after⟩
  rw [after_eq_toInfo, after_eq_toInfo]
  exact Given.same_toInfo_iff

/-- The names may come in any order, an alias counts even if it repeats the name. -/
example :
    (ResolverInfo.ofLists [] [⟨"F", "T", []⟩, ⟨"G", "T", []⟩]).same
        (.ofLists [] [⟨"G", "U", []⟩, ⟨"F", "T", []⟩, ⟨"G", "T", []⟩]) = true ∧
      (ResolverInfo.ofLists [.leaf "a"] []).same
        (.ofLists [(Field.leaf "a").withAlias "a"] []) = false := by
  decide +kernel

end RequestedFields
