import RequestedFields.KeyedList

/-!
# Tables after many insertions

A table is filled by inserting elements one after the other, and some of them have a key that was
there before.  **Each key stands where it first came in, with the element it last came in with.**
`HoldsAfter` says this about the table alone, without inserting anything: the keys of before keep
their places, the new ones follow in the order of their first elements, and what is found under a
key is the last element that has it.

* `keys_insertAll`, `find?_insertAll` — the keys and the look-ups after inserting a list, and
  `keys_ofList`, `find?_ofList` for the table of the list alone.
* `ext_find?` — keys and look-ups are all that there is to a table.
* `insertAll_toList_ofList`, `insertAll_insertAll_of_prefix` — what may be left out of the
  insertions: of a list, all that its own table does not hold; of two lists, the first if the second
  begins with it.
* `holdsAfter_iff` — **a table is what it holds after the insertions**, and so `HoldsAfter` may
  stand for them.
-/

set_option autoImplicit false

namespace RequestedFields

/-- Leaving out one element more. -/
theorem removeAll_concat {α : Type} [DecidableEq α] (l m : List α) (a : α) :
    l.removeAll (m ++ [a]) = (l.removeAll m).filter (fun b ↦ !b == a) := by
  rw [List.removeAll, List.removeAll, List.filter_filter]
  refine List.filter_congr fun b _ ↦ ?_
  rw [Bool.eq_iff_iff]
  simp [and_comm]

/-- Repetitions may be erased before or after a filter. -/
theorem filter_eraseDups {α : Type} [DecidableEq α] (p : α → Bool) (l : List α) :
    l.eraseDups.filter p = (l.filter p).eraseDups := by
  match l with
  | [] => rfl
  | a :: l =>
    have hshorter : (l.filter fun b ↦ !b == a).length < l.length + 1 :=
      Nat.lt_succ_of_le (List.length_filter_le _ l)
    have ih := filter_eraseDups p (l.filter fun b ↦ !b == a)
    rw [List.eraseDups_cons]
    by_cases ha : p a = true
    · rw [List.filter_cons_of_pos ha, List.filter_cons_of_pos ha, List.eraseDups_cons, ih,
        List.filter_filter, List.filter_filter]
      simp only [Bool.and_comm]
    · -- what passes the filter differs from `a` anyway
      have hne : ∀ b ∈ l, (p b && !b == a) = p b := by
        intro b _
        by_cases hb : b = a
        · simp [hb, ha]
        · simp [hb]
      rw [List.filter_cons_of_neg ha, List.filter_cons_of_neg ha, ih, List.filter_filter,
        List.filter_congr hne]
termination_by l.length

/-- An element with a key has a last one with that key. -/
theorem exists_last_of_mem_map {α κ : Type} [DecidableEq κ] {key : α → κ} {l : List α} {k : κ}
    (h : k ∈ l.map key) :
    ∃ earlier b later, l = earlier ++ b :: later ∧ key b = k ∧ k ∉ later.map key := by
  induction l with
  | nil => cases h
  | cons a l ih =>
    by_cases hlater : k ∈ l.map key
    · obtain ⟨earlier, b, later, rfl, hb, hlast⟩ := ih hlater
      exact ⟨a :: earlier, b, later, rfl, hb, hlast⟩
    · rcases List.mem_cons.1 h with heq | hmem
      · exact ⟨[], a, l, rfl, heq.symm, hlater⟩
      · exact absurd hmem hlater

theorem filter_key_eq_nil {α κ : Type} [DecidableEq κ] {key : α → κ} {l : List α} {k : κ}
    (h : k ∉ l.map key) : l.filter (fun b ↦ key b = k) = [] := by
  rw [List.filter_eq_nil_iff]
  intro b hb
  have hne : key b ≠ k := fun heq ↦ h (heq ▸ List.mem_map_of_mem hb)
  simpa using hne

namespace KeyedList

variable {κ β : Type} {key : β → κ} [DecidableEq κ]

/-! ## Keys and look-ups -/

/-- What is found after inserting a list: its last element with the key, if it has one. -/
theorem find?_insertAll (t : KeyedList key) (l : List β) (k : κ) :
    (t.insertAll l).find? k = (l.filter (fun b ↦ key b = k)).getLast?.or (t.find? k) := by
  induction l generalizing t with
  | nil => simp
  | cons b l ih =>
    rw [insertAll_cons, ih, find?_insert]
    by_cases hk : key b = k
    · have hk' : k = key b := hk.symm
      rw [if_pos hk', List.filter_cons_of_pos (by simpa using hk), List.getLast?_cons]
      cases (l.filter fun b ↦ key b = k).getLast? <;> rfl
    · have hk' : ¬ k = key b := fun h ↦ hk h.symm
      rw [if_neg hk', List.filter_cons_of_neg (by simpa using hk)]

/-- The keys after inserting a list: those of before, and then the new ones, each at its first
place. -/
theorem keys_insertAll (t : KeyedList key) (l : List β) :
    (t.insertAll l).keys = t.keys ++ ((l.map key).removeAll t.keys).eraseDups := by
  induction l generalizing t with
  | nil => simp [List.removeAll]
  | cons b l ih =>
    rw [insertAll_cons, ih, keys_insert, List.map_cons, List.cons_removeAll]
    by_cases hb : key b ∈ t.keys
    · rw [if_pos hb, if_neg (by simpa using hb)]
    · rw [if_neg hb, if_pos (by simpa using hb), List.eraseDups_cons, removeAll_concat,
        List.append_assoc, List.singleton_append]

/-- The keys after inserting a list, their order aside. -/
theorem mem_keys_insertAll {t : KeyedList key} {l : List β} {k : κ} :
    k ∈ (t.insertAll l).keys ↔ k ∈ t.keys ∨ k ∈ l.map key := by
  rw [keys_insertAll, List.mem_append, List.mem_eraseDups, List.removeAll, List.mem_filter]
  by_cases hk : k ∈ t.keys <;> simp [hk]

/-- What is found in the table of a list: its last element with the key. -/
theorem find?_ofList (l : List β) (k : κ) :
    (ofList l : KeyedList key).find? k = (l.filter (fun b ↦ key b = k)).getLast? := by
  rw [ofList, find?_insertAll, find?_empty, Option.or_none]

/-- The keys of the table of a list, each at its first place. -/
theorem keys_ofList (l : List β) : (ofList l : KeyedList key).keys = (l.map key).eraseDups := by
  have hnone : (empty : KeyedList key).keys = [] := rfl
  rw [ofList, keys_insertAll, hnone, List.removeAll_nil, List.nil_append]

theorem mem_keys_iff {t : KeyedList key} {k : κ} : k ∈ t.keys ↔ ∃ b, t.find? k = some b := by
  constructor
  · intro hk
    obtain ⟨b, hb, rfl⟩ := List.mem_map.1 hk
    exact ⟨b, find?_of_mem hb⟩
  · rintro ⟨b, hb⟩
    exact mem_keys_of_find? hb

/-- **Tables with the same keys in the same order and the same look-ups are equal.** -/
theorem ext_find? {t u : KeyedList key} (hkeys : t.keys = u.keys)
    (hfind : ∀ k, t.find? k = u.find? k) : t = u := by
  have hfound : ∀ t : KeyedList key, t.toList.map some = t.keys.map t.find? := fun t ↦ by
    rw [keys, List.map_map]
    exact List.map_congr_left fun b hb ↦ (find?_of_mem hb).symm
  refine ext_toList (List.map_inj_right (fun _ _ ↦ Option.some.inj) |>.1 ?_)
  rw [hfound t, hfound u, hkeys]
  exact List.map_congr_left fun k _ ↦ hfind k

/-! ## Leaving out insertions -/

theorem upsert_of_notMem {b : β} {l : List β} (h : key b ∉ l.map key) :
    upsert key b l = l ++ [b] := by
  induction l with
  | nil => rfl
  | cons a l ih =>
    rw [List.map_cons, List.mem_cons, not_or] at h
    rw [upsert, if_neg (Ne.symm h.1), ih h.2, List.cons_append]

/-- Where no key comes in a second time, the elements come behind each other. -/
theorem toList_insertAll_of_nodup {t : KeyedList key} {l : List β}
    (h : ((t.toList ++ l).map key).Nodup) : (t.insertAll l).toList = t.toList ++ l := by
  induction l generalizing t with
  | nil => rw [insertAll_nil, List.append_nil]
  | cons b l ih =>
    have hb : key b ∉ t.toList.map key := by
      rw [List.map_append, List.nodup_append] at h
      exact fun hmem ↦ h.2.2 _ hmem _ List.mem_cons_self rfl
    have hinsert : (t.insert b).toList = t.toList ++ [b] := upsert_of_notMem hb
    rw [insertAll_cons, ih, hinsert, List.append_assoc, List.singleton_append]
    rwa [hinsert, List.append_assoc, List.singleton_append]

/-- **A table is the table of its elements.** -/
@[simp] theorem ofList_toList (t : KeyedList key) : ofList t.toList = t :=
  ext_toList (toList_insertAll_of_nodup t.nodup)

/-- No key of a table is repeated. -/
theorem eraseDups_keys (t : KeyedList key) : t.keys.eraseDups = t.keys := by
  rw [keys, ← keys_ofList, ofList_toList, keys]

/-- **Inserting a list is inserting the elements of its table.** -/
theorem insertAll_toList_ofList (t : KeyedList key) (l : List β) :
    t.insertAll (ofList l : KeyedList key).toList = t.insertAll l := by
  refine ext_find? ?_ fun k ↦ ?_
  · have hkeys : (((ofList l : KeyedList key).toList.map key).removeAll t.keys).eraseDups
        = ((l.map key).removeAll t.keys).eraseDups := by
      rw [← keys, keys_ofList, List.removeAll, List.removeAll, filter_eraseDups]
      have hnew := eraseDups_keys
        (ofList ((l.map key).filter fun k ↦ !t.keys.elem k) : KeyedList (id : κ → κ))
      rwa [keys_ofList, List.map_id] at hnew
    rw [keys_insertAll, keys_insertAll, hkeys]
  · rw [find?_insertAll, find?_insertAll, ← find?_ofList, ← find?_ofList, ofList_toList]

/-- **Lists with the same table can be inserted for each other.** -/
theorem insertAll_congr {l m : List β} (h : (ofList l : KeyedList key) = ofList m)
    (t : KeyedList key) : t.insertAll l = t.insertAll m := by
  rw [← insertAll_toList_ofList, h, insertAll_toList_ofList]

/-- **A list that begins with what came in before**: the beginning need not have come in. -/
theorem insertAll_insertAll_of_prefix {l m : List β} (h : l <+: m) (t : KeyedList key) :
    (t.insertAll l).insertAll m = t.insertAll m := by
  obtain ⟨r, rfl⟩ := h
  rw [← insertAll_append]
  refine insertAll_congr (ext_find? ?_ fun k ↦ ?_) t
  · have hself : (l.map key).removeAll (l.map key) = [] := by simp [List.removeAll]
    rw [keys_ofList, keys_ofList, List.map_append, List.eraseDups_append, List.map_append,
      List.removeAll, List.filter_append, ← List.removeAll, hself, List.nil_append,
      ← List.removeAll, ← List.eraseDups_append]
  · rw [find?_ofList, find?_ofList, List.filter_append, List.filter_append, List.getLast?_append,
      List.getLast?_append]
    cases (r.filter fun b ↦ key b = k).getLast? with
    | some b => rfl
    | none => cases (l.filter fun b ↦ key b = k).getLast? <;> rfl

/-! ## What a table holds -/

/-- What the table `u` holds when the elements of `l` have come into the table `t`. -/
structure HoldsAfter (t : KeyedList key) (l : List β) (u : KeyedList key) : Prop where
  /-- No key stands there twice. -/
  nodup : u.keys.Nodup
  /-- The keys of before keep their places, and the new ones follow in the order of their first
  elements. -/
  keys_eq : u.keys = t.keys ++ ((l.map key).removeAll t.keys).eraseDups
  /-- Under a key that came in stands the last element with it. -/
  last {earlier later : List β} {b : β} (h : l = earlier ++ b :: later)
    (hlast : key b ∉ later.map key) : u.find? (key b) = some b
  /-- Under any other key stands what stood there before. -/
  kept {k : κ} (h : k ∉ l.map key) : u.find? k = t.find? k

theorem holdsAfter_insertAll (t : KeyedList key) (l : List β) : HoldsAfter t l (t.insertAll l) where
  nodup := (t.insertAll l).nodup
  keys_eq := keys_insertAll t l
  last {earlier later b} h hlast := by
    rw [find?_insertAll, h, List.filter_append, List.filter_cons_of_pos (by simp),
      filter_key_eq_nil hlast, List.getLast?_concat]
    rfl
  kept {k} h := by
    rw [find?_insertAll, filter_key_eq_nil h]
    rfl

/-- Nothing else holds the same. -/
theorem HoldsAfter.unique {t u u' : KeyedList key} {l : List β} (h : HoldsAfter t l u)
    (h' : HoldsAfter t l u') : u = u' := by
  refine ext_find? (h.keys_eq.trans h'.keys_eq.symm) fun k ↦ ?_
  by_cases hk : k ∈ l.map key
  · obtain ⟨earlier, b, later, hl, rfl, hlast⟩ := exists_last_of_mem_map hk
    rw [h.last hl hlast, h'.last hl hlast]
  · rw [h.kept hk, h'.kept hk]

/-- **A table is what it holds after the insertions.** -/
theorem holdsAfter_iff {t u : KeyedList key} {l : List β} :
    HoldsAfter t l u ↔ t.insertAll l = u := by
  constructor
  · exact (holdsAfter_insertAll t l).unique
  · rintro rfl
    exact holdsAfter_insertAll t l

end KeyedList

end RequestedFields
