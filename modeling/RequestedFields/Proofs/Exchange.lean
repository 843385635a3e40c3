import RequestedFields.Collection
import RequestedFields.Proofs.Tables

/-!
# What a walk does not look at

A walk compares the names of fragments with each other and with nothing else, and it does not look
below a field.  So the names may be exchanged for others, as long as different names stay different,
and so may whatever is selected below the fields: **the walk through what comes of it does the same,
up to the exchange.**  This covers a consistent renaming of fragments as well as a change of the
fields alone.

* `Exchange` — what becomes of names and fields; `exchangeAll`, `FragmentTable.exchange`,
  `FieldMap.exchange`, `Traversal.exchange` — of selections, definitions, maps and walks.
* `traverse_exchange` — the walk commutes with an exchange.
* `collectInto_exchange` — so does collecting.
-/

set_option autoImplicit false

namespace RequestedFields

/-! ## Exchanges -/

/-- Other names for fragments, and other fields with the same name and alias. -/
structure Exchange where
  /-- What a fragment is called instead; different fragments keep different names. -/
  name : String ↪ String
  /-- What stands in the place of a field. -/
  field : Field → Field
  /-- The alias of a field is kept. -/
  alias?_field (f : Field) : (field f).alias? = f.alias?
  /-- The name of a field is kept. -/
  name_field (f : Field) : (field f).name = f.name

namespace Exchange

variable (x : Exchange)

theorem responseKey_field (f : Field) : (x.field f).responseKey = f.responseKey := by
  rw [Field.responseKey, x.alias?_field, x.name_field, Field.responseKey]

/-- A name is not on the stack of a walk either after the exchange: this is where it counts that
different names stay different. -/
theorem notMem_map_name {stack : List String} {name : String} (h : name ∉ stack) :
    x.name name ∉ stack.map x.name := by
  rwa [List.mem_map_of_injective x.name.injective]

/-- Collected fields go by the same keys. -/
theorem keyOf_field (key : KeyChoice) (f : Field) : key.of (x.field f) = key.of f := by
  cases key with
  | name => exact x.name_field f
  | responseKey => exact x.responseKey_field f

end Exchange

mutual

/-- A selection after an exchange. -/
def Selection.exchange (x : Exchange) : Selection → Selection
  | .field f => .field (x.field f)
  | .spread name => .spread (x.name name)
  | .inline typeCondition selections => .inline typeCondition (exchangeAll x selections)

/-- A selection set after an exchange. -/
def exchangeAll (x : Exchange) : List Selection → List Selection
  | [] => []
  | a :: rest => a.exchange x :: exchangeAll x rest

end

/-- A definition after an exchange. -/
def Fragment.exchange (x : Exchange) (fragment : Fragment) : Fragment :=
  ⟨x.name fragment.name, fragment.typeCondition, exchangeAll x fragment.selections⟩

/-- The definitions after an exchange. -/
def FragmentTable.exchange (x : Exchange) (fragments : FragmentTable) : FragmentTable :=
  fragments.map x.name (Fragment.exchange x) fun _ ↦ rfl

/-- A map of fields after an exchange, which has the same keys. -/
def FieldMap.exchange (x : Exchange) (fields : FieldMap) : FieldMap :=
  fields.map (.refl String) (fun entry ↦ (entry.1, x.field entry.2)) fun entry ↦ by
    rw [Function.Embedding.refl_apply]

/-- A step of a walk after an exchange. -/
def Step.exchange (x : Exchange) : Step → Step
  | .field f => .field (x.field f)
  | .enter name => .enter (x.name name)
  | .leave name => .leave (x.name name)
  | .skip typeCondition => .skip typeCondition

/-- What is wrong with a spread, when fragments are called otherwise. -/
def FragmentError.rename (r : String → String) : FragmentError → FragmentError
  | .unknownFragment name => .unknownFragment (r name)
  | .fragmentCycle names => .fragmentCycle (names.map r)

/-- A walk after an exchange. -/
def Traversal.exchange (x : Exchange) (t : Traversal) : Traversal :=
  ⟨t.steps.map (Step.exchange x), t.fault.map (FragmentError.rename x.name)⟩

/-! ## Walking -/

section

variable (x : Exchange)

theorem FragmentTable.find?_exchange (fragments : FragmentTable) (name : String) :
    (fragments.exchange x).find? (x.name name)
      = (fragments.find? name).map (Fragment.exchange x) :=
  KeyedList.find?_map x.name _ _ fragments name

theorem FieldMap.keys_exchange (fields : FieldMap) :
    (fields.exchange x).keys = fields.keys := by
  rw [FieldMap.exchange, KeyedList.keys_map]
  exact List.map_id _

theorem FieldMap.exchange_insertAll (fields : FieldMap) (l : List (String × Field)) :
    FieldMap.exchange x (fields.insertAll l)
      = (fields.exchange x).insertAll (l.map fun entry ↦ (entry.1, x.field entry.2)) :=
  KeyedList.map_insertAll (.refl String) _ _ fields l

namespace Traversal

theorem exchange_record (s : Step) (t : Traversal) :
    (record s t).exchange x = record (s.exchange x) (t.exchange x) := rfl

theorem exchange_andThen (t u : Traversal) :
    (t.andThen u).exchange x = (t.exchange x).andThen (u.exchange x) := by
  rcases t with ⟨steps, _ | e⟩
  · simp [andThen, exchange]
  · rfl

theorem fields_exchange (t : Traversal) : (t.exchange x).fields = t.fields.map x.field := by
  have hstep : ∀ s : Step, (s.exchange x).field? = s.field?.map x.field := fun s ↦ by
    cases s <;> rfl
  rw [fields, fields, exchange, List.filterMap_map, List.map_filterMap]
  simp only [Function.comp_def, hstep]

end Traversal

/-- **The walk commutes with an exchange.** -/
theorem traverse_exchange (fragments : FragmentTable) (mode : InlineMode) (stack : List String)
    (s : List Selection) :
    traverse (fragments.exchange x) mode (stack.map x.name) (exchangeAll x s)
      = (traverse fragments mode stack s).exchange x := by
  fun_induction traverse fragments mode stack s with
  | case1 => rw [exchangeAll, traverse_nil]; rfl
  | case2 mode stack f rest ih =>
    rw [exchangeAll, Selection.exchange, traverse_field, ih, Traversal.exchange_record]
    rfl
  | case3 mode stack name rest hmem =>
    rw [exchangeAll, Selection.exchange,
      traverse_spread_of_mem _ _ _ (List.mem_map_of_mem hmem), ← List.map_singleton,
      ← List.map_append]
    rfl
  | case4 mode stack name rest hnew hdef =>
    have hnew' := x.notMem_map_name hnew
    have hdef' := FragmentTable.find?_exchange x fragments name
    rw [hdef] at hdef'
    rw [exchangeAll, Selection.exchange, traverse_spread_of_none _ _ _ hnew' hdef']
    rfl
  | case5 mode stack name rest hnew fragment hdef ihBody ihRest =>
    have hnew' := x.notMem_map_name hnew
    have hdef' := FragmentTable.find?_exchange x fragments name
    rw [hdef, Option.map_some] at hdef'
    rw [List.map_append, List.map_singleton] at ihBody
    rw [exchangeAll, Selection.exchange, traverse_spread_of_some _ _ _ hnew' hdef',
      Fragment.exchange, ihBody, ihRest, Traversal.exchange_record, Traversal.exchange_andThen,
      Traversal.exchange_record]
    rfl
  | case6 stack typeCondition selections rest ih =>
    rw [exchangeAll, Selection.exchange, traverse_inline_skip, ih, Traversal.exchange_record]
    rfl
  | case7 stack typeCondition selections rest ihInner ihRest =>
    rw [exchangeAll, Selection.exchange, traverse_inline_expand, ihInner, ihRest,
      Traversal.exchange_andThen]

/-! ## Collecting -/

/-- **Collecting commutes with an exchange**: the same keys with exchanged fields, after the
exchanged steps, and the fault with exchanged names. -/
theorem collectInto_exchange (fragments : FragmentTable) (options : CollectOptions)
    (s : List Selection) (fields : FieldMap) :
    collectInto (fragments.exchange x) options (exchangeAll x s)
        (fields.exchange x)
      = let c := collectInto fragments options s fields
        ⟨c.fields.exchange x, c.steps.map (Step.exchange x),
          c.fault.map (FragmentError.rename x.name)⟩ := by
  have hwalk := traverse_exchange x fragments options.inlineFragments [] s
  rw [List.map_nil] at hwalk
  have hkeyed : ((traverse fragments options.inlineFragments [] s).exchange x).keyed options.key
      = ((traverse fragments options.inlineFragments [] s).keyed options.key).map
          fun entry ↦ (entry.1, x.field entry.2) := by
    rw [Traversal.keyed, Traversal.keyed, Traversal.fields_exchange, List.map_map, List.map_map]
    refine List.map_congr_left fun f _ ↦ ?_
    simp only [Function.comp_apply, x.keyOf_field]
  rw [collectInto, hwalk, hkeyed]
  simp only [collectInto, Traversal.exchange, FieldMap.exchange_insertAll]

end

end RequestedFields
