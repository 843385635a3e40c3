import RequestedFields.Proofs.TaggedValues

/-!
# The calls of a context function

A context function may keep a state of its own: count the rows that it has seen, draw on a store,
write a log.  Then it matters not only what it makes of a value but **how often it is called, with
which values and in which order**.

Tagging calls it for the values that it tags, from first to last and once for each.  A list that has
a scalar in it is not tagged, but that is found out on the way: the function has been called for the
elements in front of the first scalar by then, and is called for no others.  So a payload that is
refused may still leave a changed state behind.

The calls can be told from outside.  A function that also writes them down (`recorded`) does
otherwise the same, and what it has written down afterwards is exactly the list of calls that the
result and the state come from.

* `Calls` — calls one after the other, each in the state that the one before it has left.
* `TagsBy` — what is called for a payload, and what comes of it.
* `TagsBy.run_tagM`, `exists_tagsBy` — tagging does that, and there is always something to be done.
* `tagM_eq_tagWith` — a state that the contexts do not depend on makes no difference to them.
* `tagM_calls` — all of it.
-/

set_option autoImplicit false

namespace RequestedFields

variable {σ γ : Type}

/-! ## Calls -/

/-- One call of a context function. -/
structure Call (γ : Type) where
  /-- The value that it was called with. -/
  value : Json
  /-- The context that it returned. -/
  context : γ

/-- **Calls one after the other** lead a context function from one state to another. -/
inductive Calls (f : Json → StateM σ γ) : σ → List (Call γ) → σ → Prop
  | none (s : σ) : Calls f s [] s
  /-- The first call leaves the state in which the others begin. -/
  | next {s s' t : σ} {v : Json} {c : γ} {calls : List (Call γ)} (hcall : (f v).run s = (c, s'))
      (hrest : Calls f s' calls t) : Calls f s (⟨v, c⟩ :: calls) t

/-- The function that also writes its calls down, one behind the other. -/
def recorded (f : Json → StateM σ γ) (v : Json) : StateM (List (Call γ) × σ) γ :=
  fun (log, s) ↦
    let (c, s') := (f v).run s
    (c, (log ++ [⟨v, c⟩], s'))

section

variable {f : Json → StateM σ γ} {s t : σ} {calls : List (Call γ)}

/-- Any values can be called with, one after the other. -/
theorem exists_calls (f : Json → StateM σ γ) (s : σ) (values : List Json) :
    ∃ calls t, Calls f s calls t ∧ calls.map Call.value = values := by
  induction values generalizing s with
  | nil => exact ⟨[], s, .none s, rfl⟩
  | cons v values ih =>
    obtain ⟨calls, t, hcalls, rfl⟩ := ih ((f v).run s).2
    exact ⟨⟨v, ((f v).run s).1⟩ :: calls, t, .next rfl hcalls, rfl⟩

/-- An action, and then one that begins in the state that it has left. -/
theorem run_bind_of_run {α β : Type} {x : StateM σ α} {next : α → StateM σ β} {a : α}
    (h : x.run s = (a, t)) : (x >>= next).run s = (next a).run t := by
  rw [StateT.run_bind, h]
  rfl

/-- Calls one after the other are what `mapM` does. -/
theorem Calls.run_mapM (h : Calls f s calls t) :
    ((calls.map Call.value).mapM f).run s = (calls.map Call.context, t) := by
  induction h with
  | none s => rfl
  | next hcall _ ih =>
    rw [List.map_cons, List.mapM_cons, run_bind_of_run hcall, run_bind_of_run ih]
    rfl

/-- Writing them down changes nothing about the calls. -/
theorem Calls.recorded (h : Calls f s calls t) (log : List (Call γ)) :
    Calls (recorded f) (log, s) calls (log ++ calls, t) := by
  induction h generalizing log with
  | none s =>
    rw [List.append_nil]
    exact .none _
  | @next s s' t v c calls hcall _ ih =>
    have hfirst : (RequestedFields.recorded f v).run (log, s) = (c, (log ++ [⟨v, c⟩], s')) := by
      change (((f v).run s).1, (log ++ [⟨v, ((f v).run s).1⟩], ((f v).run s).2)) = _
      rw [hcall]
    have hrest := ih (log ++ [⟨v, c⟩])
    rw [List.append_assoc, List.singleton_append] at hrest
    exact .next hfirst hrest

end

/-! ## Calls for a payload -/

/-- **What is called for a payload, and what comes of it.** -/
inductive TagsBy : Json → List (Call γ) → Except TagError (Tagging γ) → Prop
  /-- An object takes one call, with itself. -/
  | object (members : List (String × Json)) (c : γ) :
      TagsBy (.object members) [⟨.object members, c⟩] (.ok (.one ⟨.borrowed (.object members), c⟩))
  /-- A list without a scalar takes one for each element, and each has what its call returned. -/
  | list {elements : List Json} {calls : List (Call γ)}
      (hnone : ∀ element ∈ elements, ¬ element.IsScalar)
      (hcalls : calls.map Call.value = elements) :
      TagsBy (.list elements) calls
        (.ok (.many (calls.map fun call ↦ ⟨.borrowed call.value, call.context⟩)))
  /-- Any other list is refused, with one call for each element in front of its first scalar. -/
  | element {elements : List Json} {index : Nat} {v : Json} {calls : List (Call γ)}
      (hfirst : FirstScalar elements index v)
      (hcalls : calls.map Call.value = elements.take index) :
      TagsBy (.list elements) calls (.error (.elementTypeMismatch index v.kind))
  /-- A scalar is refused without a call. -/
  | scalar {v : Json} (h : v.IsScalar) : TagsBy v [] (.error (.typeMismatch v.kind))

section

variable {f : Json → StateM σ γ} {s t : σ} {payload : Json} {calls : List (Call γ)}
  {r : Except TagError (Tagging γ)}

/-- Tagging a list by the calls for the elements in front of its first scalar, if it has one. -/
theorem Calls.run_tagM_list (h : Calls f s calls t) {elements : List Json}
    (hcalls : calls.map Call.value = elements.takeWhile Json.isContainer) :
    (tagM f (.list elements)).run s
      = ((taggedElements 0 elements (calls.map Call.context)).map .many, t) := by
  rw [tagM_list_eq, ← hcalls, StateT.run_map, h.run_mapM]
  rfl

/-- **Tagging makes the calls for its payload**, and of them what comes of it. -/
theorem TagsBy.run_tagM (h : TagsBy payload calls r) (hcalls : Calls f s calls t) :
    (tagM f payload).run s = (r, t) := by
  cases h with
  | object members c =>
    cases hcalls with
    | next hcall hrest =>
      cases hrest
      rw [tagM, run_bind_of_run hcall]
      rfl
  | @list elements _ hnone helements =>
    have hall := takeWhile_of_forall hnone
    rw [hcalls.run_tagM_list (helements.trans hall.symm), taggedElements_of_forall hnone,
      ← helements, List.zipWith_map, List.zipWith_self]
    rfl
  | element hfirst helements =>
    have hbefore := takeWhile_of_firstScalar hfirst
    rw [hcalls.run_tagM_list (helements.trans hbefore.symm), taggedElements_of_firstScalar hfirst,
      Nat.zero_add]
    rfl
  | scalar hscalar =>
    cases hcalls
    rw [tagM_of_isScalar f hscalar]
    rfl

/-- There are calls for every payload. -/
theorem exists_tagsBy (f : Json → StateM σ γ) (payload : Json) (s : σ) :
    ∃ calls r t, Calls f s calls t ∧ TagsBy payload calls r := by
  rcases payload.isTaggable_or_refusedFor with (hobject | ⟨elements, rfl, hnone⟩) | ⟨e, hrefused⟩
  · obtain ⟨members, rfl⟩ := Json.isObject_iff.1 hobject
    exact ⟨_, _, _, .next rfl (.none _), .object members _⟩
  · obtain ⟨calls, t, hcalls, helements⟩ := exists_calls f s elements
    exact ⟨calls, _, t, hcalls, .list hnone helements⟩
  · cases hrefused with
    | scalar hscalar => exact ⟨[], _, s, .none s, .scalar hscalar⟩
    | @element elements index v hfirst =>
      obtain ⟨calls, t, hcalls, helements⟩ := exists_calls f s (elements.take index)
      exact ⟨calls, _, t, hcalls, .element hfirst helements⟩

/-- **Tagging leaves what the calls for its payload leave**, and nothing else. -/
theorem run_tagM_eq_iff :
    (tagM f payload).run s = (r, t) ↔ ∃ calls, Calls f s calls t ∧ TagsBy payload calls r := by
  constructor
  · intro h
    obtain ⟨calls, r', t', hcalls, htags⟩ := exists_tagsBy f payload s
    obtain ⟨rfl, rfl⟩ := Prod.mk.inj ((htags.run_tagM hcalls).symm.trans h)
    exact ⟨calls, hcalls, htags⟩
  · rintro ⟨calls, hcalls, htags⟩
    exact htags.run_tagM hcalls

/-- **The calls are the ones that are written down.** -/
theorem run_tagM_recorded_eq_iff {log : List (Call γ)} :
    (tagM (recorded f) payload).run (log, s) = (r, (log ++ calls, t)) ↔
      Calls f s calls t ∧ TagsBy payload calls r := by
  constructor
  · intro h
    obtain ⟨calls', r', t', hcalls, htags⟩ := exists_tagsBy f payload s
    obtain ⟨rfl, hstate⟩ := Prod.mk.inj ((htags.run_tagM (hcalls.recorded log)).symm.trans h)
    obtain ⟨hlog, rfl⟩ := Prod.mk.inj hstate
    obtain rfl : calls' = calls := List.append_cancel_left hlog
    exact ⟨hcalls, htags⟩
  · rintro ⟨hcalls, htags⟩
    exact htags.run_tagM (hcalls.recorded log)

end

/-! ## Contexts that do not depend on the state -/

/-- A context function that answers by its argument alone, whatever it does to its state. -/
def answering (answer : Json → γ) (change : Json → σ → σ) (v : Json) : StateM σ γ :=
  fun s ↦ (answer v, change v s)

theorem Calls.context_eq {answer : Json → γ} {change : Json → σ → σ} {s t : σ}
    {calls : List (Call γ)} (h : Calls (answering answer change) s calls t) :
    ∀ call ∈ calls, call.context = answer call.value := by
  induction h with
  | none => exact fun _ h ↦ absurd h List.not_mem_nil
  | next hcall _ ih => exact List.forall_mem_cons.2 ⟨(congrArg Prod.fst hcall).symm, ih⟩

/-- **A state that the contexts do not depend on makes no difference to what is tagged.** -/
theorem tagM_eq_tagWith (answer : Json → γ) (change : Json → σ → σ) (payload : Json) (s : σ) :
    ((tagM (answering answer change) payload).run s).1 = tagWith answer payload := by
  obtain ⟨calls, r, t, hcalls, htags⟩ := exists_tagsBy (answering answer change) payload s
  have hcontexts := hcalls.context_eq
  rw [htags.run_tagM hcalls]
  cases htags with
  | object members c =>
    obtain rfl : c = answer (.object members) := hcontexts _ List.mem_cons_self
    rfl
  | list hnone helements =>
    have hitems : calls.map (fun call ↦ (⟨.borrowed call.value, call.context⟩ : Tagged γ))
        = calls.map ((fun v ↦ ⟨.borrowed v, answer v⟩) ∘ Call.value) :=
      List.map_congr_left fun call hcall ↦ by rw [hcontexts call hcall]; rfl
    rw [tagWith_list answer hnone, ← helements, List.map_map, ← hitems]
  | element hfirst => rw [tagWith_list_of_firstScalar answer hfirst]
  | scalar hscalar => rw [tagWith_of_isScalar answer hscalar]

/-! ## All of it -/

/-- **A context function is called for what is tagged, in order and once.**  What tagging returns
and the state that it leaves come from the calls for the payload, one after the other: one for an
object, one for each element of a list without a scalar, from first to last, otherwise one for each
element in front of the first scalar, and none for a scalar.  These are the calls that the function
itself can tell of.  Each tagged value has what its own call returned, and tagging with one context
is the case in which every call returns that context. -/
theorem tagM_calls (f : Json → StateM σ γ) (payload : Json) (s : σ) :
    (∀ r t, (tagM f payload).run s = (r, t) ↔
      ∃ calls, Calls f s calls t ∧ TagsBy payload calls r) ∧
    (∀ log calls r t, (tagM (recorded f) payload).run (log, s) = (r, (log ++ calls, t)) ↔
      Calls f s calls t ∧ TagsBy payload calls r) ∧
    (∀ (c : γ) (change : Json → σ → σ),
      ((tagM (answering (fun _ ↦ c) change) payload).run s).1 = tag c payload) :=
  ⟨fun _ _ ↦ run_tagM_eq_iff, fun _ _ _ _ ↦ run_tagM_recorded_eq_iff,
    fun c change ↦ tagM_eq_tagWith (fun _ ↦ c) change payload s⟩

/-- A function that counts its calls is not called any more once a scalar has been found. -/
example : (tagM (fun _ ↦ modifyGet fun n ↦ (n, n + 1) : Json → StateM Nat Nat)
    (.list [.object [], .list [], .null, .object []])).run 0
      = (.error (.elementTypeMismatch 2 .null), 2) := by
  rfl

end RequestedFields
