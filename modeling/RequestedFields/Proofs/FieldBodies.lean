import RequestedFields.Proofs.Exchange
import RequestedFields.Proofs.FaultPlace
import RequestedFields.Trace

/-!
# What is selected below the fields

A collection takes the fields of a selection set as they are.  What is selected below them may be
anything, spreads of undefined names and of fragments that are being expanded included: **it can be
exchanged for anything else, and the same is collected**, under the same keys in the same order,
with the same events and the same fault.

So it is no cycle if a fragment spreads itself below one of its fields, which is how a query asks
for a tree.  What the guard finds out, it finds out about spreads outside of fields, and a fragment
it reports does lead back to itself through these (`leadsTo_of_fragmentCycle`).

* `Exchange.ofFields` — the exchange of the fields alone.
* `StandsAt.leadsTo` — a selection set leads to whatever is spread somewhere in its expansion.
* `collectInto_ofFields` — the result.
-/

set_option autoImplicit false

namespace RequestedFields

/-- The exchange of fields for others with the same name and alias; no fragment is called
otherwise. -/
def Exchange.ofFields (h : Field → Field) (halias : ∀ f, (h f).alias? = f.alias?)
    (hname : ∀ f, (h f).name = f.name) : Exchange where
  name := .refl String
  field := h
  alias?_field := halias
  name_field := hname

section

variable {h : Field → Field} {halias : ∀ f, (h f).alias? = f.alias?}
  {hname : ∀ f, (h f).name = f.name}

/-- What is reported of a step does not depend on the fields. -/
theorem eventsOf_exchange_ofFields (steps : List Step) :
    eventsOf (steps.map (Step.exchange (.ofFields h halias hname))) = eventsOf steps := by
  rw [eventsOf, eventsOf, List.filterMap_map]
  refine List.filterMap_congr fun s _ ↦ ?_
  cases s <;> rfl

/-- What is wrong with a spread stays wrong, and nothing else is. -/
theorem FragmentError.rename_refl (e : FragmentError) :
    e.rename (Function.Embedding.refl String) = e := by
  cases e with
  | unknownFragment name => rfl
  | fragmentCycle names => exact congrArg FragmentError.fragmentCycle (List.map_id names)

end

section

variable {fragments : FragmentTable} {mode : InlineMode} {s : List Selection}

/-- **A selection set leads to what is spread in its expansion.** -/
theorem StandsAt.leadsTo {place : List Nat} {enclosing : List String} {a : Selection}
    (h : StandsAt fragments mode s place enclosing a) {name : String}
    (hname : name ∈ a.openSpreads mode) : LeadsTo fragments mode s name := by
  induction h with
  | here hget => exact .here (mem_openSpreads_of_mem (List.mem_of_getElem? hget) hname)
  | @body s _ outer _ _ _ _ hget hdef _ ih =>
    have houter : outer ∈ openSpreads mode s :=
      mem_openSpreads_of_mem (List.mem_of_getElem? hget) (List.mem_singleton.2 rfl)
    exact (ih hname).body houter hdef
  | @inside s inner _ typeCondition _ _ _ hget hmode _ ih =>
    subst hmode
    have hinner : openSpreads .expand inner ⊆ openSpreads .expand s := fun _ hother ↦
      mem_openSpreads_of_mem (a := .inline typeCondition inner) (List.mem_of_getElem? hget) hother
    exact (ih hname).mono hinner

/-- Without spreads outside of its fields, a selection set leads nowhere. -/
theorem not_leadsTo_of_openSpreads_eq_nil (h : openSpreads mode s = []) (name : String) :
    ¬ LeadsTo fragments mode s name := by
  intro hleads
  induction hleads with
  | here hname => exact List.not_mem_nil (h ▸ hname)
  | through _ _ ih => exact ih

/-- **A fragment that is reported to be met again leads to itself**, outside of fields. -/
theorem leadsTo_of_fragmentCycle {names : List String} {name : String}
    (h : (traverse fragments mode [] s).fault = some (.fragmentCycle (names ++ [name]))) :
    ∃ fragment, fragments.find? name = some fragment ∧
      LeadsTo fragments mode fragment.selections name := by
  obtain ⟨place, hfault⟩ := fault_traverse_eq_some_iff.1 h
  obtain ⟨enclosing, spread, hreached, henclosing, hmem⟩ := faultAt_iff.1 hfault
  obtain ⟨rfl, hspread⟩ := List.append_inj' henclosing rfl
  cases hspread
  obtain ⟨outer, inner, rfl⟩ := List.append_of_mem hmem
  obtain ⟨fragment, below, hdef, hbelow⟩ := hreached.standsAt.exists_below
  exact ⟨fragment, hdef, hbelow.leadsTo (List.mem_singleton.2 rfl)⟩

end

/-- **What is selected below the fields does not matter.**  Where all fields outside of other fields
are exchanged for fields of the same name and alias, in the selection set, in the definitions and in
the map, the same is collected with the fields exchanged: the same keys in the same order, the same
fault and the same events.  So no cycle is ever reported at a fragment that leads back to itself
only through fields. -/
theorem collectInto_ofFields (fragments : FragmentTable) (options : CollectOptions) :
    (∀ (h : Field → Field) (halias : ∀ f, (h f).alias? = f.alias?)
        (hname : ∀ f, (h f).name = f.name) (s : List Selection) (fields : FieldMap),
      let x := Exchange.ofFields h halias hname
      let c := collectInto fragments options s fields
      let exchanged :=
        collectInto (fragments.exchange x) options (exchangeAll x s) (fields.exchange x)
      exchanged.fields.toList = c.fields.toList.map (fun entry ↦ (entry.1, h entry.2)) ∧
        exchanged.fault = c.fault ∧ eventsOf exchanged.steps = eventsOf c.steps) ∧
    ∀ name fragment, fragments.find? name = some fragment →
      ¬ LeadsTo fragments options.inlineFragments fragment.selections name →
      ∀ s fields names, (collectInto fragments options s fields).fault
        ≠ some (.fragmentCycle (names ++ [name])) := by
  constructor
  · intro h halias hname s fields
    have hexchange := collectInto_exchange (.ofFields h halias hname) fragments options s fields
    dsimp only at hexchange ⊢
    rw [hexchange]
    refine ⟨rfl, ?_, eventsOf_exchange_ofFields _⟩
    have hrename : FragmentError.rename (Exchange.ofFields h halias hname).name = id :=
      funext FragmentError.rename_refl
    rw [hrename, Option.map_id_apply]
  · intro name fragment hdef hnot s fields names hfault
    obtain ⟨fragment', hdef', hleads⟩ := leadsTo_of_fragmentCycle hfault
    rw [hdef] at hdef'
    cases hdef'
    exact hnot hleads

/-- A fragment that asks for a tree.  It spreads itself below a field, in the place of which may
stand the spread of a fragment that is not defined. -/
theorem collectInto_ofFields_tree :
    let tree : Fragment :=
      ⟨"F", "T", [.field (.leaf "a"), .field ⟨some "b", "children", [.spread "F"]⟩]⟩
    let fragments : FragmentTable := .ofList [tree]
    let missing : Field → Field := fun f ↦ f.withSelections [.spread "G"]
    let x := Exchange.ofFields missing (fun _ ↦ rfl) fun _ ↦ rfl
    let s : List Selection := [.spread "F", .field (.leaf "c")]
    let fields : FieldMap := .ofList [("b", .leaf "b")]
    let c := collectInto fragments .response s fields
    let exchanged :=
      collectInto (fragments.exchange x) .response (exchangeAll x s) (fields.exchange x)
    (exchanged.fields.toList = c.fields.toList.map (fun entry ↦ (entry.1, missing entry.2)) ∧
        exchanged.fault = c.fault ∧ eventsOf exchanged.steps = eventsOf c.steps) ∧
      fragments.find? "F" = some tree ∧
      ¬ LeadsTo fragments .expand tree.selections "F" ∧
      c.fault ≠ some (.fragmentCycle (["F"] ++ ["F"])) := by
  intro tree fragments missing x s fields c exchanged
  have hdef : fragments.find? "F" = some tree := rfl
  have hnot : ¬ LeadsTo fragments .expand tree.selections "F" :=
    not_leadsTo_of_openSpreads_eq_nil rfl "F"
  have hfields := collectInto_ofFields fragments .response
  exact ⟨hfields.1 missing _ _ s fields, hdef, hnot, hfields.2 "F" tree hdef hnot s fields ["F"]⟩

end RequestedFields
