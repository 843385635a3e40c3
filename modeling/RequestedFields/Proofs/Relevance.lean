import RequestedFields.Collection
import RequestedFields.Proofs.SpreadNames
import RequestedFields.Proofs.Tables

/-!
# The definitions that matter

What is collected from a selection set depends on **the definitions it leads to** and on nothing
else that a resolver is told: not on the field nodes, not on definitions it does not lead to, not on
the order in which the names were defined.  A collection is the map, the fault with all names of a
cycle and the steps, which the reported events are read off, and all of that is the same.

* `leadsTo_congr` — what is led to does not depend on other definitions either, so it does not
  matter in which of two tables it is looked for.
* `collectInto_congr` — the collection.
* `collectInto_eq_of_leadsTo` — both, with the case of two resolvers that are told the same.
-/

set_option autoImplicit false

namespace RequestedFields

section

variable {fragments fragments' : FragmentTable}

/-- **Where two tables agree on the names that one of them leads to**, both lead to these names. -/
theorem leadsTo_congr {mode : InlineMode} {s : List Selection}
    (h : ∀ name, LeadsTo fragments mode s name → fragments.find? name = fragments'.find? name)
    (name : String) : LeadsTo fragments mode s name ↔ LeadsTo fragments' mode s name := by
  constructor
  · intro hname
    induction hname with
    | here hspread => exact .here hspread
    | through ha hspreads ih =>
      obtain ⟨fragment, hdef, hb⟩ := hspreads
      exact .through ih ⟨fragment, by rw [← h _ ha, hdef], hb⟩
  · intro hname
    induction hname with
    | here hspread => exact .here hspread
    | through _ hspreads ih =>
      obtain ⟨fragment, hdef, hb⟩ := hspreads
      exact .through ih ⟨fragment, by rw [h _ ih, hdef], hb⟩

/-- **What is collected depends on the definitions that are led to.** -/
theorem collectInto_congr {options : CollectOptions} {s : List Selection}
    (h : ∀ name, LeadsTo fragments options.inlineFragments s name →
      fragments.find? name = fragments'.find? name) (fields : FieldMap) :
    collectInto fragments options s fields = collectInto fragments' options s fields := by
  rw [collectInto, collectInto, traverse_congr h]

end

/-- Collecting cannot tell two resolvers apart that are told the same. -/
theorem collect_eq_of_same {info info' : ResolverInfo} (h : info.same info' = true)
    (options : CollectOptions) :
    (∀ s fields, collectInto info.fragments options s fields
      = collectInto info'.fragments options s fields) ∧
    (∀ s, collect info.fragments options s = collect info'.fragments options s) ∧
    collectRoot info options = collectRoot info' options := by
  obtain ⟨hnodes, hfind⟩ := ResolverInfo.same_iff.1 h
  have hinto : ∀ s fields, collectInto info.fragments options s fields
      = collectInto info'.fragments options s fields :=
    fun s fields ↦ collectInto_congr (fun name _ ↦ hfind name) fields
  have hcollect : ∀ s, collect info.fragments options s = collect info'.fragments options s :=
    fun s ↦ hinto s .empty
  refine ⟨hinto, hcollect, ?_⟩
  rw [collectRoot, collectRoot, hnodes]
  simp only [hcollect]

/-- **Only the definitions that a selection set leads to matter.**  Where two resolvers are told the
same definitions of the names it leads to, whatever else they are told, the same is collected: the
same map, the same fault and the same steps; and it leads to the same names for both.  Two resolvers
that are told the same collect the same from everything. -/
theorem collectInto_eq_of_leadsTo (info info' : ResolverInfo) (options : CollectOptions) :
    (∀ s, (∀ name, LeadsTo info.fragments options.inlineFragments s name →
        info.fragment? name = info'.fragment? name) →
      (∀ fields, collectInto info.fragments options s fields
        = collectInto info'.fragments options s fields) ∧
      ∀ name, LeadsTo info.fragments options.inlineFragments s name ↔
        LeadsTo info'.fragments options.inlineFragments s name) ∧
    (info.same info' = true →
      (∀ s fields, collectInto info.fragments options s fields
        = collectInto info'.fragments options s fields) ∧
      (∀ s, collect info.fragments options s = collect info'.fragments options s) ∧
      collectRoot info options = collectRoot info' options) :=
  ⟨fun _ h ↦ ⟨collectInto_congr h, leadsTo_congr h⟩, fun h ↦ collect_eq_of_same h options⟩

/-- A fragment that spreads itself, and two that spread each other. -/
def threeFragments : ResolverInfo :=
  .ofLists [.leaf "x"] [⟨"H", "T", [.spread "H"]⟩, ⟨"F", "T", [.spread "G"]⟩,
    ⟨"G", "T", [.field (.leaf "a"), .spread "F"]⟩]

/-- The other two in another order, for another field. -/
def twoFragments : ResolverInfo :=
  .ofLists [.leaf "y"] [⟨"G", "T", [.field (.leaf "a"), .spread "F"]⟩, ⟨"F", "T", [.spread "G"]⟩]

/-- The two, defined the other way round. -/
def twoReordered : ResolverInfo :=
  .ofLists [.leaf "y"] [⟨"F", "T", [.spread "G"]⟩, ⟨"G", "T", [.field (.leaf "a"), .spread "F"]⟩]

theorem leadsTo_threeFragments {name : String}
    (h : LeadsTo threeFragments.fragments .skip [.inline none [.spread "H"], .spread "F"] name) :
    name = "F" ∨ name = "G" := by
  induction h with
  | here hspread => exact Or.inl (List.mem_singleton.1 hspread)
  | through _ hspreads ih =>
    obtain ⟨fragment, hdef, hb⟩ := hspreads
    rcases ih with rfl | rfl
    · cases hdef
      exact Or.inr (List.mem_singleton.1 hb)
    · cases hdef
      exact Or.inl (List.mem_singleton.1 hb)

/-- Inline fragments are skipped, so the fragment that spreads itself does not matter, and neither
does the order of the other two. -/
theorem collectInto_eq_of_leadsTo_cycle :
    ((∀ name,
        LeadsTo threeFragments.fragments .skip [.inline none [.spread "H"], .spread "F"] name →
        threeFragments.fragment? name = twoFragments.fragment? name) ∧
      ∀ fields, collectInto threeFragments.fragments .default
          [.inline none [.spread "H"], .spread "F"] fields
        = collectInto twoFragments.fragments .default
          [.inline none [.spread "H"], .spread "F"] fields) ∧
    twoFragments.same twoReordered = true ∧
      collectRoot twoFragments .response = collectRoot twoReordered .response := by
  have hagree : ∀ name,
      LeadsTo threeFragments.fragments .skip [.inline none [.spread "H"], .spread "F"] name →
      threeFragments.fragment? name = twoFragments.fragment? name := by
    intro name h
    rcases leadsTo_threeFragments h with rfl | rfl <;> rfl
  have hsame : twoFragments.same twoReordered = true := by decide
  exact ⟨⟨hagree, ((collectInto_eq_of_leadsTo threeFragments twoFragments .default).1 _ hagree).1⟩,
    hsame, ((collectInto_eq_of_leadsTo twoFragments twoReordered .response).2 hsame).2.2⟩

end RequestedFields
