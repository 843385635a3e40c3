import Mathlib.Data.List.TakeWhile
import RequestedFields.Tagging

/-!
# What tagging leaves and what it adds

Tagging goes through a payload with an index, a context function and a way to stop at the first
value that cannot be tagged.  What comes of it can be told without any of that: **the values of the
payload stand where they stood, each with its context beside it, and nothing else is there.**  A
payload cannot be tagged for one of two reasons only, and of several elements that stand in the way
it is the first that is named.

A list can be tagged, and can be tagged as an element, for different reasons.  As a payload it is
taken apart, and so may be empty; as an element it is a value like any other, and what is in it does
not matter.

Whatever is then done with the tagged values, one by one, does not concern the payload: they may be
detached and their contexts may be made into others, of other types, any number of times.

* `tagElements_eq` — the loop over the elements: an action for each of those that stand before the
  first scalar, and nothing for any behind it.
* `FirstScalar` — the first scalar of a list, by its place.
* `tagWith_object`, `tagWith_list`, `tagWith_list_of_firstScalar`, `tagWith_of_isScalar` — tagging,
  case by case.
* `IsTagging` — what can be told from a tagging.
* `ItemChanges`, `Tagging.changeItems` — sequences of changes, one for each of the tagged values;
  `IsTagging.changeItems` — what can be told afterwards.  `IsTagging.detach` — the case in which all
  of them are detached.
* `Json.RefusedFor` — what a payload that cannot be tagged is refused for.
* `tagWith_faithful` — all of it.
-/

set_option autoImplicit false

namespace RequestedFields

variable {γ δ : Type}

/-! ## Scalars -/

namespace Json

/-- Null, booleans, numbers and strings. -/
def IsScalar (v : Json) : Prop :=
  v.kind = .null ∨ v.kind = .boolean ∨ v.kind = .number ∨ v.kind = .string

theorem isContainer_iff {v : Json} : v.isContainer = true ↔ ¬ v.IsScalar := by
  cases v <;> simp [IsScalar, kind, isContainer]

/-- What can be tagged: an object, or a list in which no element is a scalar. -/
def IsTaggable (v : Json) : Prop :=
  v.isObject = true ∨ ∃ elements, v = .list elements ∧ ∀ element ∈ elements, ¬ element.IsScalar

/-- The values that are tagged: the elements of a list, and anything else as a whole. -/
def taggedValues : Json → List Json
  | .list elements => elements
  | v => [v]

end Json

/-- The first scalar of a list, by its place. -/
structure FirstScalar (elements : List Json) (index : Nat) (v : Json) : Prop where
  stands : elements[index]? = some v
  scalar : v.IsScalar
  /-- No element before it is a scalar. -/
  least : ∀ i < index, ∀ u, elements[i]? = some u → ¬ u.IsScalar

theorem FirstScalar.unique {elements : List Json} {index index' : Nat} {v v' : Json}
    (h : FirstScalar elements index v) (h' : FirstScalar elements index' v') :
    index = index' ∧ v = v' := by
  obtain rfl : index = index' := by
    rcases Nat.lt_trichotomy index index' with hlt | heq | hgt
    · exact absurd h.scalar (h'.least index hlt v h.stands)
    · exact heq
    · exact absurd h'.scalar (h.least index' hgt v' h'.stands)
  exact ⟨rfl, Option.some.inj (h.stands.symm.trans h'.stands)⟩

/-- A scalar behind values that are none is the first one. -/
theorem firstScalar_append {before : List Json} {v : Json}
    (hbefore : ∀ u ∈ before, ¬ u.IsScalar) (hv : v.IsScalar) (behind : List Json) :
    FirstScalar (before ++ v :: behind) before.length v where
  stands := by simp
  scalar := hv
  least i hi u hu := by
    rw [List.getElem?_append_left hi] at hu
    exact hbefore u (List.mem_of_getElem? hu)

/-- Either no element is a scalar, or the list can be cut in front of the first one. -/
theorem exists_cut (elements : List Json) :
    (∀ element ∈ elements, ¬ element.IsScalar) ∨
      ∃ before v behind, elements = before ++ v :: behind ∧ (∀ u ∈ before, ¬ u.IsScalar) ∧
        v.IsScalar := by
  induction elements with
  | nil => exact .inl fun _ h ↦ absurd h List.not_mem_nil
  | cons v rest ih =>
    by_cases hv : v.IsScalar
    · exact .inr ⟨[], v, rest, rfl, fun _ h ↦ absurd h List.not_mem_nil, hv⟩
    · rcases ih with hnone | ⟨before, u, behind, rfl, hbefore, hu⟩
      · exact .inl (List.forall_mem_cons.2 ⟨hv, hnone⟩)
      · exact .inr ⟨v :: before, u, behind, rfl, List.forall_mem_cons.2 ⟨hv, hbefore⟩, hu⟩

theorem firstScalar_iff {elements : List Json} {index : Nat} {v : Json} :
    FirstScalar elements index v ↔
      ∃ before behind, elements = before ++ v :: behind ∧ before.length = index ∧
        (∀ u ∈ before, ¬ u.IsScalar) ∧ v.IsScalar := by
  constructor
  · intro h
    rcases exists_cut elements with hnone | ⟨before, u, behind, rfl, hbefore, hu⟩
    · exact absurd h.scalar (hnone v (List.mem_of_getElem? h.stands))
    · obtain ⟨rfl, rfl⟩ := (firstScalar_append hbefore hu behind).unique h
      exact ⟨before, behind, rfl, rfl, hbefore, hu⟩
  · rintro ⟨before, behind, rfl, rfl, hbefore, hv⟩
    exact firstScalar_append hbefore hv behind

/-! ## The loop over the elements -/

/-- What becomes of elements with the numbers from `index` on, once there are contexts for those
that stand before the first scalar. -/
def taggedElements (index : Nat) (elements : List Json) (contexts : List γ) :
    Except TagError (List (Tagged γ)) :=
  match elements.dropWhile Json.isContainer with
  | [] => .ok (List.zipWith (fun v c ↦ ⟨.borrowed v, c⟩) elements contexts)
  | v :: _ =>
    .error (.elementTypeMismatch (index + (elements.takeWhile Json.isContainer).length) v.kind)

theorem taggedElements_cons (index : Nat) {v : Json} (hv : v.isContainer = true)
    (rest : List Json) (c : γ) (contexts : List γ) :
    taggedElements index (v :: rest) (c :: contexts)
      = (taggedElements (index + 1) rest contexts).map (⟨.borrowed v, c⟩ :: ·) := by
  rw [taggedElements, taggedElements, List.dropWhile_cons_of_pos hv, List.takeWhile_cons_of_pos hv,
    List.length_cons]
  cases rest.dropWhile Json.isContainer with
  | nil => rfl
  | cons u behind =>
    rw [Nat.add_right_comm]
    rfl

/-- **The loop**: the action is run for the elements before the first scalar, one after the other,
and for no other. -/
theorem tagElements_eq {m : Type → Type} [Monad m] [LawfulMonad m] (context : Json → m γ)
    (index : Nat) (elements : List Json) :
    tagElements context index elements
      = taggedElements index elements
          <$> (elements.takeWhile Json.isContainer).mapM context := by
  induction elements generalizing index with
  | nil => simp [tagElements, taggedElements]
  | cons v rest ih =>
    rw [tagElements]
    by_cases hv : v.isContainer = true
    · rw [if_pos hv, List.takeWhile_cons_of_pos hv, List.mapM_cons]
      simp only [ih, map_bind, map_pure, bind_map_left, taggedElements_cons index hv]
    · rw [if_neg hv, List.takeWhile_cons_of_neg hv]
      simp [taggedElements, List.dropWhile_cons_of_neg hv, List.takeWhile_cons_of_neg hv]

/-! Which elements the loop comes to, and what it makes of them, in terms of the first scalar. -/

section

variable {elements : List Json}

theorem takeWhile_of_forall (h : ∀ element ∈ elements, ¬ element.IsScalar) :
    elements.takeWhile Json.isContainer = elements :=
  List.takeWhile_eq_self_iff.2 fun v hv ↦ Json.isContainer_iff.2 (h v hv)

/-- Without a scalar, each element is tagged with its context. -/
theorem taggedElements_of_forall (h : ∀ element ∈ elements, ¬ element.IsScalar) (first : Nat)
    (contexts : List γ) :
    taggedElements first elements contexts
      = .ok (List.zipWith (fun v c ↦ ⟨.borrowed v, c⟩) elements contexts) := by
  rw [taggedElements, List.dropWhile_eq_nil_iff.2 fun v hv ↦ Json.isContainer_iff.2 (h v hv)]

theorem takeWhile_of_firstScalar {index : Nat} {v : Json} (h : FirstScalar elements index v) :
    elements.takeWhile Json.isContainer = elements.take index := by
  obtain ⟨before, behind, rfl, rfl, hbefore, hv⟩ := firstScalar_iff.1 h
  have hstop : ¬ v.isContainer = true := fun hv' ↦ Json.isContainer_iff.1 hv' hv
  rw [List.takeWhile_append_of_pos fun u hu ↦ Json.isContainer_iff.2 (hbefore u hu),
    List.takeWhile_cons_of_neg hstop, List.append_nil, List.take_left]

/-- With a scalar, nothing is tagged, and the first one is named. -/
theorem taggedElements_of_firstScalar {index : Nat} {v : Json} (h : FirstScalar elements index v)
    (first : Nat) (contexts : List γ) :
    taggedElements first elements contexts
      = .error (.elementTypeMismatch (first + index) v.kind) := by
  rw [taggedElements, takeWhile_of_firstScalar h]
  obtain ⟨before, behind, rfl, rfl, hbefore, hv⟩ := firstScalar_iff.1 h
  have hstop : ¬ v.isContainer = true := fun hv' ↦ Json.isContainer_iff.1 hv' hv
  rw [List.dropWhile_append_of_pos fun u hu ↦ Json.isContainer_iff.2 (hbefore u hu),
    List.dropWhile_cons_of_neg hstop, List.take_left]

end

/-! ## Tagging, case by case -/

section

variable {m : Type → Type} [Monad m] (context : Json → m γ)

/-- A scalar is refused, and no action is run. -/
theorem tagM_of_isScalar {v : Json} (h : v.IsScalar) :
    tagM context v = pure (.error (.typeMismatch v.kind)) := by
  cases v with
  | list elements => simp [Json.IsScalar, Json.kind] at h
  | object members => simp [Json.IsScalar, Json.kind] at h
  | _ => rfl

/-- To tag a list is to run the loop over its elements. -/
theorem tagM_list_eq [LawfulMonad m] (elements : List Json) :
    tagM context (.list elements)
      = (fun contexts ↦ (taggedElements 0 elements contexts).map .many)
          <$> (elements.takeWhile Json.isContainer).mapM context := by
  rw [tagM, tagElements_eq, bind_pure_comp, Functor.map_map]

end

section

variable (f : Json → γ)

theorem tagWith_object (members : List (String × Json)) :
    tagWith f (.object members) = .ok (.one ⟨.borrowed (.object members), f (.object members)⟩) :=
  rfl

theorem tagWith_of_isScalar {v : Json} (h : v.IsScalar) :
    tagWith f v = .error (.typeMismatch v.kind) := by
  rw [tagWith, tagM_of_isScalar _ h]
  rfl

theorem tagWith_list_eq (elements : List Json) :
    tagWith f (.list elements)
      = (taggedElements 0 elements ((elements.takeWhile Json.isContainer).map f)).map .many := by
  rw [tagWith, tagM_list_eq, List.mapM_pure, map_pure]
  rfl

/-- **A list without a scalar** is tagged element by element. -/
theorem tagWith_list {elements : List Json} (h : ∀ element ∈ elements, ¬ element.IsScalar) :
    tagWith f (.list elements) = .ok (.many (elements.map fun v ↦ ⟨.borrowed v, f v⟩)) := by
  rw [tagWith_list_eq, takeWhile_of_forall h, taggedElements_of_forall h, List.zipWith_map_right,
    List.zipWith_self]
  rfl

/-- **A list with a scalar** is refused for the first one. -/
theorem tagWith_list_of_firstScalar {elements : List Json} {index : Nat} {v : Json}
    (h : FirstScalar elements index v) :
    tagWith f (.list elements) = .error (.elementTypeMismatch index v.kind) := by
  rw [tagWith_list_eq, taggedElements_of_firstScalar h, Nat.zero_add]
  rfl

end

/-! ## What can be told from a tagging -/

/-- What can be told from a tagging of a payload in which the value with a number has the context
that `context` makes of both. -/
structure IsTagging (payload : Json) (context : Nat → Json → γ) (t : Tagging γ) : Prop where
  /-- It is written as the payload. -/
  payload_eq : t.payload = payload
  /-- It is one value exactly for an object. -/
  one_iff : (∃ item, t = .one item) ↔ payload.isObject = true
  /-- It is many values exactly for a list. -/
  many_iff : (∃ items, t = .many items) ↔ ∃ elements, payload = .list elements
  /-- The values stand in their order, each with its own context. -/
  getElem?_items (i : Nat) : (t.items[i]?).map (fun item ↦ (item.payload, item.context))
    = (payload.taggedValues[i]?).map fun v ↦ (v, context i v)
  /-- That context is read from it, whatever the value itself may hold inline. -/
  read {i : Nat} {item : Tagged γ} (h : t.items[i]? = some item) :
    item.context? = some (context i item.payload)
  /-- There are no others. -/
  size_eq : t.size = payload.taggedValues.length
  isEmpty_iff : t.isEmpty = true ↔ payload = .list []
  /-- Taken out as a list they are the same. -/
  items_toMany : t.toMany.items = t.items
  /-- The payload as a whole has a context exactly if it is an object. -/
  context?_eq : t.context? = if payload.isObject then some (context 0 payload) else none

section

variable {context : Nat → Json → γ}

/-- A tagged value has the context for its number and its payload if all of them do. -/
theorem context?_of_getElem? {items : List (Tagged γ)} {values : List Json}
    (hitems : ∀ i, (items[i]?).map (fun item ↦ (item.payload, item.context))
      = (values[i]?).map fun v ↦ (v, context i v))
    {i : Nat} {item : Tagged γ} (h : items[i]? = some item) :
    item.context? = some (context i item.payload) := by
  have hi := hitems i
  rw [h, Option.map_some] at hi
  obtain ⟨v, -, hv⟩ := Option.map_eq_some_iff.1 hi.symm
  obtain ⟨rfl, hcontext⟩ := Prod.mk.inj hv
  exact congrArg some hcontext.symm

theorem isTagging_one {payload : Json} {item : Tagged γ} (hobject : payload.isObject = true)
    (hpayload : item.payload = payload) (hcontext : item.context = context 0 payload) :
    IsTagging payload context (.one item) := by
  obtain ⟨members, rfl⟩ := Json.isObject_iff.1 hobject
  have hitems : ∀ i, ([item][i]?).map (fun item ↦ (item.payload, item.context))
      = ([Json.object members][i]?).map fun v ↦ (v, context i v) := fun i ↦ by
    cases i <;> simp [hpayload, hcontext]
  exact {
    payload_eq := hpayload
    one_iff := ⟨fun _ ↦ rfl, fun _ ↦ ⟨item, rfl⟩⟩
    many_iff := ⟨(fun ⟨_, h⟩ ↦ nomatch h), (fun ⟨_, h⟩ ↦ nomatch h)⟩
    getElem?_items := hitems
    read := context?_of_getElem? hitems
    size_eq := rfl
    isEmpty_iff := ⟨(fun h ↦ nomatch h), (fun h ↦ nomatch h)⟩
    items_toMany := rfl
    context?_eq := congrArg some hcontext }

theorem isTagging_many {elements : List Json} {items : List (Tagged γ)}
    (hitems : ∀ i, (items[i]?).map (fun item ↦ (item.payload, item.context))
      = (elements[i]?).map fun v ↦ (v, context i v)) :
    IsTagging (.list elements) context (.many items) := by
  have hpayloads : items.map Tagged.payload = elements := by
    refine List.ext_getElem? fun i ↦ ?_
    simpa [Function.comp_def] using congrArg (Option.map Prod.fst) (hitems i)
  have hlength : items.length = elements.length := by
    rw [← hpayloads, List.length_map]
  exact {
    payload_eq := congrArg Json.list hpayloads
    one_iff := ⟨(fun ⟨_, h⟩ ↦ nomatch h), (fun h ↦ nomatch h)⟩
    many_iff := ⟨fun _ ↦ ⟨elements, rfl⟩, fun _ ↦ ⟨items, rfl⟩⟩
    getElem?_items := hitems
    read := context?_of_getElem? hitems
    size_eq := hlength
    isEmpty_iff := by rw [← hpayloads]; simp [Tagging.isEmpty, Tagging.items]
    items_toMany := rfl
    context?_eq := rfl }

end

/-! ## Changing the tagged values -/

/-- What can be done with a tagged value, one thing after the other, with contexts of one type in
the beginning and of another in the end. -/
inductive ItemChanges : Type → Type → Type 1 where
  | done {γ : Type} : ItemChanges γ γ
  /-- Its payload is copied. -/
  | detach {γ δ : Type} (rest : ItemChanges γ δ) : ItemChanges γ δ
  /-- A function makes another context of its context. -/
  | mapContext {γ ε δ : Type} (f : γ → ε) (rest : ItemChanges ε δ) : ItemChanges γ δ

namespace ItemChanges

/-- The tagged value after the changes. -/
def apply {γ δ : Type} : ItemChanges γ δ → Tagged γ → Tagged δ
  | .done, t => t
  | .detach rest, t => rest.apply t.detach
  | .mapContext f rest, t => rest.apply (t.mapContext f)

/-- What all functions on the way make of a context. -/
def mapped {γ δ : Type} : ItemChanges γ δ → γ → δ
  | .done, c => c
  | .detach rest, c => rest.mapped c
  | .mapContext f rest, c => rest.mapped (f c)

@[simp] theorem payload_apply (changes : ItemChanges γ δ) (t : Tagged γ) :
    (changes.apply t).payload = t.payload := by
  induction changes with
  | done => rfl
  | detach rest ih => rw [apply, ih]; rfl
  | mapContext f rest ih => rw [apply, ih]; rfl

@[simp] theorem context_apply (changes : ItemChanges γ δ) (t : Tagged γ) :
    (changes.apply t).context = changes.mapped t.context := by
  induction changes with
  | done => rfl
  | detach rest ih => rw [apply, ih]; rfl
  | mapContext f rest ih => rw [apply, ih]; rfl

end ItemChanges

/-- The tagging whose values went through a sequence of changes each. -/
def Tagging.changeItems (changes : Nat → ItemChanges γ δ) : Tagging γ → Tagging δ
  | .one item => .one ((changes 0).apply item)
  | .many items => .many (items.mapIdx fun i item ↦ (changes i).apply item)

/-- The same changes for each of many values. -/
theorem Tagging.changeItems_many (changes : ItemChanges γ δ) (items : List (Tagged γ)) :
    (many items).changeItems (fun _ ↦ changes) = .many (items.map changes.apply) := by
  refine congrArg many (List.ext_getElem? fun i ↦ ?_)
  rw [List.getElem?_mapIdx, List.getElem?_map]

/-- To detach a tagging is to detach each of its values. -/
theorem Tagging.detach_eq_changeItems (t : Tagging γ) :
    t.detach = t.changeItems fun _ ↦ .detach .done := by
  cases t with
  | one item => rfl
  | many items => rw [changeItems_many]; rfl

namespace IsTagging

variable {payload : Json} {context : Nat → Json → γ} {t : Tagging γ}

/-- **Changes of the tagged values change their contexts and nothing else.** -/
theorem changeItems (h : IsTagging payload context t) (changes : Nat → ItemChanges γ δ) :
    IsTagging payload (fun i v ↦ (changes i).mapped (context i v)) (t.changeItems changes) := by
  cases t with
  | one item =>
    have hobject : payload.isObject = true := h.one_iff.1 ⟨item, rfl⟩
    have hpayload : item.payload = payload := h.payload_eq
    have hcontext : item.context = context 0 item.payload := Option.some.inj (h.read rfl)
    refine isTagging_one hobject ?_ ?_
    · rw [ItemChanges.payload_apply, hpayload]
    · rw [ItemChanges.context_apply, hcontext, hpayload]
  | many items =>
    obtain ⟨elements, rfl⟩ := h.many_iff.1 ⟨items, rfl⟩
    refine isTagging_many fun i ↦ ?_
    have hi : (items[i]?).map (fun item ↦ (item.payload, item.context))
        = (elements[i]?).map fun v ↦ (v, context i v) := h.getElem?_items i
    have hmapped := congrArg (Option.map fun p ↦ (p.1, (changes i).mapped p.2)) hi
    rw [List.getElem?_mapIdx, Option.map_map]
    simpa [Function.comp_def] using hmapped

/-- Detaching all of them changes nothing that can be told. -/
theorem detach (h : IsTagging payload context t) : IsTagging payload context t.detach := by
  rw [Tagging.detach_eq_changeItems]
  exact h.changeItems fun _ ↦ .detach .done

end IsTagging

/-! ## Tagging -/

/-- What a payload is refused for: as a scalar, or as a list for its first scalar. -/
inductive Json.RefusedFor : Json → TagError → Prop where
  | scalar {v : Json} (h : v.IsScalar) : v.RefusedFor (.typeMismatch v.kind)
  | element {elements : List Json} {index : Nat} {v : Json} (h : FirstScalar elements index v) :
    (Json.list elements).RefusedFor (.elementTypeMismatch index v.kind)

/-- A payload can be tagged, or there is something that it is refused for. -/
theorem Json.isTaggable_or_refusedFor (payload : Json) :
    payload.IsTaggable ∨ ∃ e, payload.RefusedFor e := by
  cases payload with
  | object members => exact .inl (.inl rfl)
  | list elements =>
    rcases exists_cut elements with hnone | ⟨before, v, behind, rfl, hbefore, hv⟩
    · exact .inl (.inr ⟨elements, rfl, hnone⟩)
    · exact .inr ⟨_, .element (firstScalar_append hbefore hv behind)⟩
  | _ => exact .inr ⟨_, .scalar (by simp [IsScalar, kind])⟩

theorem tagWith_of_refusedFor (f : Json → γ) {payload : Json} {e : TagError}
    (h : payload.RefusedFor e) : tagWith f payload = .error e := by
  cases h with
  | scalar hv => exact tagWith_of_isScalar f hv
  | element hfirst => exact tagWith_list_of_firstScalar f hfirst

theorem exists_tagWith_of_isTaggable (f : Json → γ) {payload : Json} (h : payload.IsTaggable) :
    ∃ t, tagWith f payload = .ok t ∧ IsTagging payload (fun _ v ↦ f v) t := by
  rcases h with hobject | ⟨elements, rfl, hnone⟩
  · obtain ⟨members, rfl⟩ := Json.isObject_iff.1 hobject
    exact ⟨_, tagWith_object f members, isTagging_one rfl rfl rfl⟩
  · refine ⟨_, tagWith_list f hnone, isTagging_many fun i ↦ ?_⟩
    rw [List.getElem?_map, Option.map_map]
    rfl

theorem isTaggable_of_tagWith {f : Json → γ} {payload : Json} {t : Tagging γ}
    (h : tagWith f payload = .ok t) : payload.IsTaggable := by
  rcases payload.isTaggable_or_refusedFor with htaggable | ⟨e, hrefused⟩
  · exact htaggable
  · cases h.symm.trans (tagWith_of_refusedFor f hrefused)

theorem isTagging_of_tagWith {f : Json → γ} {payload : Json} {t : Tagging γ}
    (h : tagWith f payload = .ok t) : IsTagging payload (fun _ v ↦ f v) t := by
  obtain ⟨t', ht', htagging⟩ := exists_tagWith_of_isTaggable f (isTaggable_of_tagWith h)
  obtain rfl : t' = t := Except.ok.inj (ht'.symm.trans h)
  exact htagging

theorem tagWith_eq_error_iff {f : Json → γ} {payload : Json} {e : TagError} :
    tagWith f payload = .error e ↔ payload.RefusedFor e := by
  refine ⟨fun h ↦ ?_, tagWith_of_refusedFor f⟩
  rcases payload.isTaggable_or_refusedFor with htaggable | ⟨e', hrefused⟩
  · obtain ⟨t, ht, -⟩ := exists_tagWith_of_isTaggable f htaggable
    cases h.symm.trans ht
  · obtain rfl : e' = e := Except.error.inj ((tagWith_of_refusedFor f hrefused).symm.trans h)
    exact hrefused

/-- **Tagging is faithful.**  A payload can be tagged exactly if it is an object, or a list in which
no element is a scalar.  Then the tagging is written as the payload; it is one value for an object
and many for a list; its values are those of the payload, as many, in order, each with the context
that the function makes of it, which is what is read from it; and the whole has a context exactly if
it is one value.  The same goes, with contexts made into others, after it has been detached and
after any sequences of changes to its values.  What cannot be tagged is a scalar, or has a first
element that is one, and is refused for its kind. -/
theorem tagWith_faithful (f : Json → γ) (payload : Json) :
    ((∃ t, tagWith f payload = .ok t) ↔ payload.IsTaggable) ∧
    (∀ t, tagWith f payload = .ok t →
      IsTagging payload (fun _ v ↦ f v) t ∧
      IsTagging payload (fun _ v ↦ f v) t.detach ∧
      ∀ (δ : Type) (changes : Nat → ItemChanges γ δ),
        IsTagging payload (fun i v ↦ (changes i).mapped (f v)) (t.changeItems changes) ∧
        IsTagging payload (fun i v ↦ (changes i).mapped (f v)) (t.detach.changeItems changes)) ∧
    (∀ e, tagWith f payload = .error e ↔ payload.RefusedFor e) := by
  refine ⟨⟨fun ⟨_, h⟩ ↦ isTaggable_of_tagWith h, fun h ↦ ?_⟩, fun t h ↦ ?_,
    fun _ ↦ tagWith_eq_error_iff⟩
  · obtain ⟨t, ht, -⟩ := exists_tagWith_of_isTaggable f h
    exact ⟨t, ht⟩
  · have htagging : IsTagging payload (fun _ v ↦ f v) t := isTagging_of_tagWith h
    exact ⟨htagging, htagging.detach, fun _ changes ↦
      ⟨htagging.changeItems changes, htagging.detach.changeItems changes⟩⟩

end RequestedFields
