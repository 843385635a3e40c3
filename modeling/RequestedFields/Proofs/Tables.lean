import Mathlib.Data.List.Nodup
import Mathlib.Data.List.Perm.Subperm
import Mathlib.Logic.Embedding.Basic
import RequestedFields.Proofs.Insertions
import RequestedFields.ResolverInfo

/-!
# Comparing and mapping tables

Two tables may list their keys in different orders and still be the same map, and then `agrees` says
so.  It only compares the sizes and looks the elements of the first table up in the second; that
this is enough is a pigeonhole argument, since no table has a key twice.

A table can be mapped element by element as long as different keys stay different.  Looking up and
inserting then commute with the map, so whatever is done with a table through these two does.

* `KeyedList.agrees_iff` — **tables agree exactly if every look-up does.**
* `ResolverInfo.same_iff` — the same for what two resolvers are told.
* `KeyedList.map`, with `keys_map`, `find?_map`, `map_insert` and `map_insertAll`.
-/

set_option autoImplicit false

namespace RequestedFields

namespace KeyedList

/-! ## Comparing -/

section Comparing

variable {κ β : Type} {key : β → κ}

/-- Tables in which the same keys are found have as many elements. -/
theorem size_eq_of_mem_keys_iff {t u : KeyedList key} (h : ∀ k, k ∈ t.keys ↔ k ∈ u.keys) :
    t.size = u.size := by
  have hperm : t.keys.Perm u.keys := (List.perm_ext_iff_of_nodup t.nodup u.nodup).2 h
  have hlen := hperm.length_eq
  rwa [keys, keys, List.length_map, List.length_map] at hlen

/-- A table has no key besides those of another one that is no larger, if it has all of these. -/
theorem mem_keys_of_subset {t u : KeyedList key} (hsize : t.size = u.size)
    (hsub : t.keys ⊆ u.keys) {k : κ} (hk : k ∈ u.keys) : k ∈ t.keys := by
  have hlen : u.keys.length ≤ t.keys.length := by
    rw [keys, keys, List.length_map, List.length_map]
    exact Nat.le_of_eq hsize.symm
  exact ((List.subperm_of_subset t.nodup hsub).perm_of_length_le hlen).mem_iff.2 hk

/-- **Tables agree exactly if every look-up does.** -/
theorem agrees_iff [DecidableEq κ] [BEq β] [LawfulBEq β] {t u : KeyedList key} :
    t.agrees u = true ↔ ∀ k, t.find? k = u.find? k := by
  rw [agrees, Bool.and_eq_true, beq_iff_eq, List.all_eq_true]
  constructor
  · rintro ⟨hsize, hall⟩ k
    have hfound : ∀ b ∈ t.toList, u.find? (key b) = some b := fun b hb ↦ by simpa using hall b hb
    cases ht : t.find? k with
    | some b =>
      rw [← key_of_find? ht, hfound b (mem_of_find? ht)]
    | none =>
      -- every key of `t` is one of `u`, which has no more of them, so `k` is no key of `u` either
      have hsub : t.keys ⊆ u.keys := by
        intro j hj
        obtain ⟨b, hb, rfl⟩ := List.mem_map.1 hj
        exact mem_keys_of_find? (hfound b hb)
      have hnot : k ∉ u.keys := fun hk ↦
        find?_eq_none_iff.1 ht (mem_keys_of_subset hsize hsub hk)
      rw [find?_eq_none_iff.2 hnot]
  · intro h
    have hkeys : ∀ k, k ∈ t.keys ↔ k ∈ u.keys := fun k ↦ by
      rw [mem_keys_iff, mem_keys_iff, h k]
    refine ⟨size_eq_of_mem_keys_iff hkeys, fun b hb ↦ ?_⟩
    rw [← h, find?_of_mem hb, beq_self_eq_true]

end Comparing

/-! ## Mapping -/

section Mapping

variable {κ κ' β β' : Type} {key : β → κ} {key' : β' → κ'} (φ : κ ↪ κ') (g : β → β')
  (h : ∀ b, key' (g b) = φ (key b))

/-- The table of the images of all elements, whose keys are mapped one to one. -/
def map (t : KeyedList key) : KeyedList key' :=
  ⟨t.toList.map g, by
    have hkeys : (t.toList.map g).map key' = (t.toList.map key).map φ := by
      rw [List.map_map, List.map_map]
      exact List.map_congr_left fun b _ ↦ h b
    rw [hkeys]
    exact List.Nodup.map φ.injective t.nodup⟩

@[simp] theorem toList_map (t : KeyedList key) : (t.map φ g h).toList = t.toList.map g := rfl

theorem keys_map (t : KeyedList key) : (t.map φ g h).keys = t.keys.map φ := by
  rw [keys, keys, toList_map, List.map_map, List.map_map]
  exact List.map_congr_left fun b _ ↦ h b

variable [DecidableEq κ] [DecidableEq κ']

theorem find?_map (t : KeyedList key) (k : κ) :
    (t.map φ g h).find? (φ k) = (t.find? k).map g := by
  have hkey : ∀ b, (decide (key' (g b) = φ k)) = decide (key b = k) := fun b ↦ by
    rw [h b, decide_eq_decide, φ.apply_eq_iff_eq]
  rw [find?, find?, lookup, lookup, toList_map, List.find?_map]
  simp only [Function.comp_def, hkey]

include h in
theorem map_upsert (b : β) (l : List β) :
    (upsert key b l).map g = upsert key' (g b) (l.map g) := by
  induction l with
  | nil => rfl
  | cons a l ih =>
    have hkey : key' (g a) = key' (g b) ↔ key a = key b := by rw [h, h, φ.apply_eq_iff_eq]
    rw [upsert, List.map_cons, upsert]
    by_cases heq : key a = key b
    · rw [if_pos heq, if_pos (hkey.2 heq), List.map_cons]
    · rw [if_neg heq, if_neg (mt hkey.1 heq), List.map_cons, ih]

theorem map_insert (t : KeyedList key) (b : β) :
    (t.insert b).map φ g h = (t.map φ g h).insert (g b) :=
  ext_toList (map_upsert φ g h b t.toList)

theorem map_insertAll (t : KeyedList key) (l : List β) :
    (t.insertAll l).map φ g h = (t.map φ g h).insertAll (l.map g) := by
  induction l generalizing t with
  | nil => rfl
  | cons b l ih => rw [insertAll_cons, ih, map_insert, List.map_cons, insertAll_cons]

end Mapping

end KeyedList

/-! ## What resolvers are told -/

/-- **Two resolvers are told the same exactly if** their field nodes are the same in order and every
name has the same definition. -/
theorem ResolverInfo.same_iff {a b : ResolverInfo} :
    a.same b = true ↔
      a.fieldNodes = b.fieldNodes ∧ ∀ name, a.fragment? name = b.fragment? name := by
  rw [same, Bool.and_eq_true, beq_iff_eq, KeyedList.agrees_iff]
  rfl

end RequestedFields
