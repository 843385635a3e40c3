/-!
# Keyed lists

A keyed list is a list whose elements carry pairwise distinct keys, in the order in which the keys
came in.  Three tables of this library are keyed lists: the fragment definitions of a document
(keyed by name), the fields collected from a selection set (keyed as the options say) and, in its
raw form, the members of a JSON object.

## What is here

* `upsert key b l` — put `b` where the element with its key stands, or at the end if there is none.
  **Position comes from the first arrival of a key, the element from the last.**
* `KeyedList key` — the lists with distinct keys, with `insert`, `insertAll`, `ofList`, `find?`,
  `keys` and `size`.
* `map_key_upsert`, `lookup_upsert` — what an insertion does to the keys and to every look-up; these
  two describe it completely.
* `KeyedList.agrees` — equality of two tables *as maps*, which forgets the order of the keys.
-/

set_option autoImplicit false

namespace RequestedFields

section Raw

variable {κ β : Type} [DecidableEq κ] (key : β → κ)

/-- Put `b` in the place of the first element with the same key; with no such element, at the
end. -/
def upsert (b : β) : List β → List β
  | [] => [b]
  | a :: rest => if key a = key b then b :: rest else a :: upsert b rest

/-- The first element with the key `k`. -/
def lookup (k : κ) (l : List β) : Option β :=
  l.find? (fun a => key a = k)

@[simp] theorem lookup_nil (k : κ) : lookup key k [] = none := rfl

theorem lookup_cons (k : κ) (a : β) (l : List β) :
    lookup key k (a :: l) = if key a = k then some a else lookup key k l := by
  rw [lookup, List.find?_cons]
  by_cases h : key a = k <;> simp [h, lookup]

/-- What is found under a key has that key. -/
theorem key_of_lookup {k : κ} {l : List β} {b : β} (h : lookup key k l = some b) : key b = k := by
  simpa using List.find?_some h

theorem mem_of_lookup {k : κ} {l : List β} {b : β} (h : lookup key k l = some b) : b ∈ l :=
  List.mem_of_find?_eq_some h

theorem lookup_eq_none_iff {k : κ} {l : List β} : lookup key k l = none ↔ k ∉ l.map key := by
  simp [lookup]

/-- With distinct keys, every element is found under its own key. -/
theorem lookup_of_mem {l : List β} (h : (l.map key).Nodup) {b : β} (hb : b ∈ l) :
    lookup key (key b) l = some b := by
  induction l with
  | nil => simp at hb
  | cons a l ih =>
    rw [lookup_cons]
    rw [List.map_cons, List.nodup_cons] at h
    rcases List.mem_cons.1 hb with rfl | hb
    · simp
    · have hne : key a ≠ key b := fun e => h.1 (e ▸ List.mem_map_of_mem hb)
      simpa [hne] using ih h.2 hb

/-- An insertion leaves the keys as they are, or adds a new one at the end. -/
theorem map_key_upsert (b : β) (l : List β) :
    (upsert key b l).map key = if key b ∈ l.map key then l.map key else l.map key ++ [key b] := by
  induction l with
  | nil => simp [upsert]
  | cons a l ih =>
    rw [upsert]
    by_cases h : key a = key b
    · simp [h]
    · have h' : ¬ key b = key a := fun e => h e.symm
      rw [if_neg h, List.map_cons, ih]
      by_cases hm : key b ∈ l.map key <;> simp [hm, h']

/-- An insertion changes the look-up of its own key and of no other. -/
theorem lookup_upsert (b : β) (l : List β) (k : κ) :
    lookup key k (upsert key b l) = if k = key b then some b else lookup key k l := by
  induction l with
  | nil => by_cases h : k = key b <;> simp [upsert, lookup_cons, h, eq_comm]
  | cons a l ih =>
    rw [upsert]
    by_cases h : key a = key b
    · rw [if_pos h, lookup_cons, lookup_cons]
      by_cases hk : k = key b
      · simp [hk]
      · have hk' : ¬ key b = k := fun e => hk e.symm
        simp [h, hk, hk']
    · rw [if_neg h, lookup_cons, ih, lookup_cons]
      by_cases hk : k = key b
      · simp [hk, h]
      · simp [hk]

theorem nodup_map_key_upsert (b : β) {l : List β} (h : (l.map key).Nodup) :
    ((upsert key b l).map key).Nodup := by
  rw [map_key_upsert]
  split
  · exact h
  · next hm =>
    rw [List.nodup_append]
    refine ⟨h, by simp, ?_⟩
    intro a ha c hc e
    rw [List.mem_singleton.1 hc] at e
    exact hm (e ▸ ha)

end Raw

/-- A list whose elements have pairwise distinct keys. -/
structure KeyedList {κ β : Type} (key : β → κ) where
  /-- The elements, in the order in which their keys came in. -/
  toList : List β
  /-- No key occurs twice. -/
  nodup : (toList.map key).Nodup

namespace KeyedList

variable {κ β : Type} {key : β → κ}

theorem ext_toList {t u : KeyedList key} (h : t.toList = u.toList) : t = u := by
  cases t; cases u; cases h; rfl

/-- The table with no element. -/
def empty : KeyedList key := ⟨[], by simp⟩

instance : EmptyCollection (KeyedList key) := ⟨empty⟩

instance : Inhabited (KeyedList key) := ⟨empty⟩

/-- The keys, in the order in which they came in. -/
def keys (t : KeyedList key) : List κ := t.toList.map key

/-- The number of elements. -/
def size (t : KeyedList key) : Nat := t.toList.length

variable [DecidableEq κ]

/-- The element with the key `k`. -/
def find? (t : KeyedList key) (k : κ) : Option β := lookup key k t.toList

/-- Put `b` in the place of the element with its key, or at the end. -/
def insert (t : KeyedList key) (b : β) : KeyedList key :=
  ⟨upsert key b t.toList, nodup_map_key_upsert key b t.nodup⟩

/-- Insert the elements of a list one after the other. -/
def insertAll (t : KeyedList key) (l : List β) : KeyedList key := l.foldl insert t

/-- The table of a list: each key at its first position with its last element. -/
def ofList (l : List β) : KeyedList key := empty.insertAll l

@[simp] theorem find?_empty (k : κ) : (empty : KeyedList key).find? k = none := rfl

theorem find?_insert (t : KeyedList key) (b : β) (k : κ) :
    (t.insert b).find? k = if k = key b then some b else t.find? k :=
  lookup_upsert key b t.toList k

theorem keys_insert (t : KeyedList key) (b : β) :
    (t.insert b).keys = if key b ∈ t.keys then t.keys else t.keys ++ [key b] :=
  map_key_upsert key b t.toList

@[simp] theorem insertAll_nil (t : KeyedList key) : t.insertAll [] = t := rfl

@[simp] theorem insertAll_cons (t : KeyedList key) (b : β) (l : List β) :
    t.insertAll (b :: l) = (t.insert b).insertAll l := rfl

theorem insertAll_append (t : KeyedList key) (l m : List β) :
    t.insertAll (l ++ m) = (t.insertAll l).insertAll m := List.foldl_append

theorem key_of_find? {t : KeyedList key} {k : κ} {b : β} (h : t.find? k = some b) : key b = k :=
  key_of_lookup key h

theorem mem_of_find? {t : KeyedList key} {k : κ} {b : β} (h : t.find? k = some b) :
    b ∈ t.toList :=
  mem_of_lookup key h

theorem mem_keys_of_find? {t : KeyedList key} {k : κ} {b : β} (h : t.find? k = some b) :
    k ∈ t.keys := by
  rw [← key_of_find? h]
  exact List.mem_map_of_mem (mem_of_find? h)

theorem find?_eq_none_iff {t : KeyedList key} {k : κ} : t.find? k = none ↔ k ∉ t.keys :=
  lookup_eq_none_iff key

/-- Every element is found under its own key. -/
theorem find?_of_mem {t : KeyedList key} {b : β} (h : b ∈ t.toList) : t.find? (key b) = some b :=
  lookup_of_mem key t.nodup h

/-- Two tables agree as maps: they have as many elements, and each element of the first is found
in the second under its key.  The order of the keys does not count. -/
def agrees [BEq β] (t u : KeyedList key) : Bool :=
  t.size == u.size && t.toList.all (fun b => u.find? (key b) == some b)

end KeyedList

end RequestedFields
