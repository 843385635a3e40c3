import RequestedFields.Proofs.Occurrences
import RequestedFields.Proofs.Places

/-!
# The fields in front of a place

A field can be met many times on the way to a place, at different places of its own.  What is met is
therefore a list of **fields with their places**: all that come before the given place in
depth-first order, and each of these places once (`FieldsBefore`).  That describes the list
completely.

Nothing in this speaks of a walk.  How the list is put together out of those of smaller selection
sets is said by `FieldsBefore.cons` and `FieldsBefore.below`, and `Expands.exists_fieldsBefore`
finds in it the whole of an expansion.
-/

set_option autoImplicit false

namespace RequestedFields

/-- The fields in front of a place, each with its own place, in depth-first order. -/
structure FieldsBefore (fragments : FragmentTable) (mode : InlineMode) (s : List Selection)
    (place : List Nat) (placed : List (List Nat × Field)) : Prop where
  /-- Earlier entries have earlier places. -/
  sorted : placed.Pairwise fun x y ↦ x.1 < y.1
  /-- The fields that stand in front of the place are all there, and nothing else is. -/
  mem_iff (q : List Nat) (f : Field) : (q, f) ∈ placed ↔
    q < place ∧ ∃ enclosing, StandsAt fragments mode s q enclosing (.field f)

/-- The place that a place becomes when one selection more is written in front. -/
def shifted : List Nat → List Nat
  | [] => []
  | i :: below => (i + 1) :: below

theorem shifted_lt_shifted_iff {p q : List Nat} : shifted p < shifted q ↔ p < q := by
  cases p <;> cases q <;> simp [shifted, List.cons_lt_cons_iff]

theorem shifted_isPrefix_shifted_iff {p q : List Nat} : shifted p <+: shifted q ↔ p <+: q := by
  cases p <;> cases q <;> simp [shifted, List.cons_prefix_cons]

section

variable {fragments : FragmentTable} {mode : InlineMode} {s : List Selection} {a : Selection}
  {place : List Nat} {placed : List (List Nat × Field)}

/-- There is one such list. -/
theorem FieldsBefore.unique {placed' : List (List Nat × Field)}
    (h : FieldsBefore fragments mode s place placed)
    (h' : FieldsBefore fragments mode s place placed') : placed = placed' :=
  eq_of_pairwise_of_mem_iff (fun _ _ ↦ List.lt_asymm) h.sorted h'.sorted
    fun x ↦ (h.mem_iff x.1 x.2).trans (h'.mem_iff x.1 x.2).symm

/-- Nothing is in front of the first selection. -/
theorem fieldsBefore_zero : FieldsBefore fragments mode s [0] [] := by
  refine ⟨.nil, fun q f ↦ iff_of_false List.not_mem_nil ?_⟩
  rintro ⟨hlt, _, h⟩
  exact h.not_lt_zero hlt

/-- Only the places that are taken matter for what is in front of another. -/
theorem FieldsBefore.congr {place' : List Nat} (h : FieldsBefore fragments mode s place placed)
    (hiff : ∀ {q enclosing f}, StandsAt fragments mode s q enclosing (.field f) →
      (q < place ↔ q < place')) : FieldsBefore fragments mode s place' placed := by
  refine ⟨h.sorted, fun q f ↦ (h.mem_iff q f).trans (and_congr_left ?_)⟩
  rintro ⟨_, hstands⟩
  exact hiff hstands

/-- What stands in a selection set stands in its first selection or among the others. -/
theorem exists_standsAt_cons_iff {q : List Nat} {b : Selection} :
    (∃ enclosing, StandsAt fragments mode (a :: s) q enclosing b) ↔
      (∃ enclosing, StandsAt fragments mode [a] q enclosing b) ∨
        ∃ p, shifted p = q ∧ ∃ enclosing, StandsAt fragments mode s p enclosing b := by
  constructor
  · rintro ⟨enclosing, h⟩
    obtain ⟨i, below, rfl⟩ := h.exists_eq_cons
    cases i with
    | zero => exact Or.inl ⟨enclosing, standsAt_cons_zero.1 h⟩
    | succ i => exact Or.inr ⟨i :: below, rfl, enclosing, standsAt_cons_succ.1 h⟩
  · rintro (⟨enclosing, h⟩ | ⟨p, rfl, enclosing, h⟩)
    · obtain ⟨below, rfl⟩ := h.exists_eq_zero_cons
      exact ⟨enclosing, standsAt_cons_zero.2 h⟩
    · obtain ⟨i, below, rfl⟩ := h.exists_eq_cons
      exact ⟨enclosing, standsAt_cons_succ.2 h⟩

/-- What stands in the first selection comes before the others. -/
theorem StandsAt.lt_shifted {enclosing : List String} {b : Selection} {q : List Nat}
    (h : StandsAt fragments mode [a] q enclosing b) (i : Nat) (below : List Nat) :
    q < shifted (i :: below) := by
  obtain ⟨r, rfl⟩ := h.exists_eq_zero_cons
  exact List.cons_lt_cons_iff.2 (Or.inl i.succ_pos)

/-- **One selection more in front**: its fields come first, and the places of the others are
shifted. -/
theorem FieldsBefore.cons {front : List (List Nat × Field)} {i : Nat} {below : List Nat}
    (ha : FieldsBefore fragments mode [a] [1] front)
    (h : FieldsBefore fragments mode s (i :: below) placed) :
    FieldsBefore fragments mode (a :: s) ((i + 1) :: below)
      (front ++ placed.map fun x ↦ (shifted x.1, x.2)) := by
  constructor
  · rw [List.pairwise_append, List.pairwise_map]
    refine ⟨ha.sorted, h.sorted.imp shifted_lt_shifted_iff.2, fun x hx y hy ↦ ?_⟩
    obtain ⟨z, hz, rfl⟩ := List.mem_map.1 hy
    obtain ⟨-, _, hfront⟩ := (ha.mem_iff x.1 x.2).1 hx
    obtain ⟨-, _, hstands⟩ := (h.mem_iff z.1 z.2).1 hz
    obtain ⟨j, r, hr⟩ := hstands.exists_eq_cons
    rw [hr]
    exact hfront.lt_shifted j r
  · intro q f
    rw [List.mem_append, List.mem_map, exists_standsAt_cons_iff]
    constructor
    · rintro (hx | ⟨⟨p, g⟩, hx, heq⟩)
      · obtain ⟨-, enclosing, hfront⟩ := (ha.mem_iff q f).1 hx
        exact ⟨hfront.lt_shifted i below, Or.inl ⟨enclosing, hfront⟩⟩
      · cases heq
        obtain ⟨hlt, hstands⟩ := (h.mem_iff p g).1 hx
        exact ⟨shifted_lt_shifted_iff (q := i :: below).2 hlt, Or.inr ⟨p, rfl, hstands⟩⟩
    · rintro ⟨hlt, ⟨enclosing, hfront⟩ | ⟨p, rfl, hstands⟩⟩
      · exact Or.inl ((ha.mem_iff q f).2 ⟨hfront.lt_length, enclosing, hfront⟩)
      · have hp : p < i :: below := shifted_lt_shifted_iff.1 hlt
        exact Or.inr ⟨(p, f), (h.mem_iff p f).2 ⟨hp, hstands⟩, rfl⟩

/-- Fields below a selection that is no field itself. -/
theorem exists_standsAt_field_below_iff {inner : List Selection}
    (hstep : a.step fragments mode = .ok ([], inner)) {f : Field} :
    (∃ enclosing, StandsAt fragments mode (a :: s) (0 :: place) enclosing (.field f)) ↔
      ∃ enclosing, StandsAt fragments mode inner place enclosing (.field f) := by
  by_cases hne : place = []
  · subst hne
    refine iff_of_false ?_ ?_
    · rintro ⟨enclosing, h⟩
      cases h with
      | here hget =>
        cases hget
        cases hstep
      | body _ _ hbelow | inside _ _ hbelow => exact hbelow.ne_nil rfl
    · rintro ⟨enclosing, h⟩
      exact h.ne_nil rfl
  · exact exists_standsAt_below_iff hstep hne

/-- **What stands for a selection is below it.** -/
theorem FieldsBefore.below {inner : List Selection}
    (hstep : a.step fragments mode = .ok ([], inner))
    (h : FieldsBefore fragments mode inner place placed) (s : List Selection) :
    FieldsBefore fragments mode (a :: s) (0 :: place) (placed.map fun x ↦ (0 :: x.1, x.2)) := by
  constructor
  · rw [List.pairwise_map]
    exact h.sorted.imp fun hlt ↦ List.cons_lt_cons_iff.2 (Or.inr ⟨rfl, hlt⟩)
  · intro q f
    have hmem : (q, f) ∈ placed.map (fun x ↦ (0 :: x.1, x.2)) ↔
        ∃ r, (r, f) ∈ placed ∧ 0 :: r = q := by
      simp
    rw [hmem]
    constructor
    · rintro ⟨r, hr, rfl⟩
      obtain ⟨hlt, hstands⟩ := (h.mem_iff r f).1 hr
      exact ⟨List.cons_lt_cons_iff.2 (Or.inr ⟨rfl, hlt⟩),
        (exists_standsAt_field_below_iff hstep).2 hstands⟩
    · rintro ⟨hlt, enclosing, hstands⟩
      obtain ⟨j, r, rfl⟩ := hstands.exists_eq_cons
      rcases List.cons_lt_cons_iff.1 hlt with hj | ⟨rfl, hr⟩
      · exact absurd hj (Nat.not_lt_zero j)
      · have hinner := (exists_standsAt_field_below_iff hstep).1 ⟨enclosing, hstands⟩
        exact ⟨r, (h.mem_iff r f).2 ⟨hr, hinner⟩, rfl⟩

/-- The only field of a field is itself. -/
theorem fieldsBefore_field (f : Field) :
    FieldsBefore fragments mode [.field f] [1] [([0], f)] := by
  refine ⟨List.pairwise_singleton _ _, fun q g ↦ ?_⟩
  rw [List.mem_singleton]
  constructor
  · intro heq
    cases heq
    exact ⟨by simp [List.cons_lt_cons_iff], [], .here rfl⟩
  · rintro ⟨-, enclosing, hstands⟩
    obtain ⟨r, rfl⟩ := hstands.exists_eq_zero_cons
    obtain ⟨rfl, -, heq⟩ := hstands.of_field rfl
    cases heq
    rfl

/-- All fields that stand for a selection other than a field. -/
theorem FieldsBefore.single {inner : List Selection}
    (hstep : a.step fragments mode = .ok ([], inner))
    (h : FieldsBefore fragments mode inner [inner.length] placed) :
    FieldsBefore fragments mode [a] [1] (placed.map fun x ↦ (0 :: x.1, x.2)) := by
  refine (h.below hstep []).congr fun {q enclosing f} hstands ↦ ?_
  refine iff_of_true ?_ hstands.lt_length
  obtain ⟨r, rfl⟩ := hstands.exists_eq_zero_cons
  obtain ⟨_, hinner⟩ := (exists_standsAt_field_below_iff hstep).1 ⟨enclosing, hstands⟩
  exact List.cons_lt_cons_iff.2 (Or.inr ⟨rfl, hinner.lt_length⟩)

/-- **An expansion lists the fields of a selection set**, all that come before the index behind its
last selection. -/
theorem Expands.exists_fieldsBefore {met : List Field} (h : Expands fragments mode s met) :
    ∃ placed, FieldsBefore fragments mode s [s.length] placed ∧ placed.map Prod.snd = met := by
  induction h with
  | nil => exact ⟨[], fieldsBefore_zero, rfl⟩
  | field f _ ih =>
    obtain ⟨placed, hplaced, rfl⟩ := ih
    exact ⟨_, (fieldsBefore_field f).cons hplaced, by simp [Function.comp_def]⟩
  | spread hdef _ _ ihBody ih =>
    obtain ⟨inner, hinner, rfl⟩ := ihBody
    obtain ⟨placed, hplaced, rfl⟩ := ih
    exact ⟨_, (hinner.single (step_spread_of_some hdef)).cons hplaced, by simp [Function.comp_def]⟩
  | skip typeCondition selections _ ih =>
    obtain ⟨placed, hplaced, rfl⟩ := ih
    have hstep : (Selection.inline typeCondition selections).step fragments .skip
        = .ok ([], []) := rfl
    exact ⟨_, (fieldsBefore_zero.single hstep).cons hplaced, by simp [Function.comp_def]⟩
  | expand typeCondition _ _ ihInner ih =>
    obtain ⟨inner, hinner, rfl⟩ := ihInner
    obtain ⟨placed, hplaced, rfl⟩ := ih
    exact ⟨_, (hinner.single (a := .inline typeCondition _) rfl).cons hplaced,
      by simp [Function.comp_def]⟩

end

end RequestedFields
