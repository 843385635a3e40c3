import RequestedFields.PathWalk
import RequestedFields.Proofs.Expansion

/-!
# Occurrences along a path

A path of response keys is walked level by level, all nodes of a level at once.  What it *means* is
said depth-first, one node at a time: a **chain** along the path takes a field with the first key
out of the expansion of the operation, then a field with the second key out of the expansion below
that field, and so on.  A field may stand in an expansion more than once, so each link of a chain
carries the position it was taken from; chains are different if any of their positions are.

This file defines chains and shows how all chains along a path, in the lexicographic order of their
positions, become all chains along the path with one more key.

* `Chain`, `endSelections`, `endField?` — a chain, the selection set it leads to, and its last
  field.
* `Chain.concat`, `Chain.exists_of_concat` — one link more, one link less.
* `Listing` — the list of all chains along a path, in order; `Listing.unique` is why one may say
  "the".
* `Listing.extend`, `map_endField?_extend` — the listing for one more key, and the fields at the
  ends of its chains: the matches of the level.
-/

set_option autoImplicit false

namespace RequestedFields

/-! ## Chains -/

/-- Fields `f₁, …, fₙ` with the keys of the path, each taken out of the expansion of what is
selected below the one before it, the first out of that of the given selections.  A link is a field
with the position it was taken from. -/
inductive Chain (fragments : FragmentTable) :
    List Selection → List String → List (Nat × Field) → Prop
  | nil (s : List Selection) : Chain fragments s [] []
  | cons {s : List Selection} {met : List Field} {i : Nat} {f : Field} {path : List String}
      {links : List (Nat × Field)} (hexp : Expands fragments .expand s met)
      (hf : met[i]? = some f) (h : Chain fragments f.selections path links) :
      Chain fragments s (f.responseKey :: path) ((i, f) :: links)

/-- The selection set that a chain leads to: the one below its last field. -/
def endSelections (root : List Selection) : List (Nat × Field) → List Selection
  | [] => root
  | (_, f) :: links => endSelections f.selections links

/-- The last field of a chain. -/
def endField? (links : List (Nat × Field)) : Option Field := links.getLast?.map Prod.snd

/-- The positions that the fields of a chain were taken from. -/
def positions (links : List (Nat × Field)) : List Nat := links.map Prod.fst

@[simp] theorem endSelections_concat (root : List Selection) (links : List (Nat × Field)) (i : Nat)
    (f : Field) : endSelections root (links ++ [(i, f)]) = f.selections := by
  induction links generalizing root with
  | nil => rfl
  | cons link links ih => exact ih link.2.selections

/-- A chain with a last field leads to what is selected below it. -/
theorem endSelections_of_endField? {root : List Selection} {links : List (Nat × Field)} {f : Field}
    (h : endField? links = some f) : endSelections root links = f.selections := by
  obtain ⟨⟨i, g⟩, hlast, rfl⟩ := Option.map_eq_some_iff.1 h
  obtain ⟨before, rfl⟩ := List.getLast?_eq_some_iff.1 hlast
  exact endSelections_concat root before i g

@[simp] theorem endField?_concat (links : List (Nat × Field)) (i : Nat) (f : Field) :
    endField? (links ++ [(i, f)]) = some f := by
  rw [endField?, List.getLast?_concat, Option.map_some]

@[simp] theorem positions_concat (links : List (Nat × Field)) (i : Nat) (f : Field) :
    positions (links ++ [(i, f)]) = positions links ++ [i] := by
  rw [positions, List.map_append]
  rfl

section

variable {fragments : FragmentTable} {root : List Selection} {path : List String}
  {links : List (Nat × Field)}

theorem Chain.length_positions (h : Chain fragments root path links) :
    (positions links).length = path.length := by
  induction h with
  | nil => rfl
  | cons _ _ _ ih =>
    rw [positions, List.map_cons, List.length_cons, ← positions, ih, List.length_cons]

/-- A chain goes on with a field out of the expansion of what it leads to. -/
theorem Chain.concat (h : Chain fragments root path links) {met : List Field} {i : Nat} {f : Field}
    (hexp : Expands fragments .expand (endSelections root links) met) (hf : met[i]? = some f) :
    Chain fragments root (path ++ [f.responseKey]) (links ++ [(i, f)]) := by
  induction h with
  | nil s => exact .cons hexp hf (.nil _)
  | cons hexp' hf' _ ih => exact .cons hexp' hf' (ih hexp)

/-- A chain along a path with one more key is one along the path, gone on with. -/
theorem Chain.exists_of_concat {key : String}
    (h : Chain fragments root (path ++ [key]) links) :
    ∃ before met i f, links = before ++ [(i, f)] ∧ Chain fragments root path before ∧
      Expands fragments .expand (endSelections root before) met ∧ met[i]? = some f ∧
      f.responseKey = key := by
  induction path generalizing root links with
  | nil =>
    cases h with
    | cons hexp hf h =>
      cases h
      exact ⟨[], _, _, _, rfl, .nil root, hexp, hf, rfl⟩
  | cons first path ih =>
    cases h with
    | cons hexp hf h =>
      obtain ⟨before, met, i, f, rfl, hbefore, hmet, hi, hkey⟩ := ih h
      exact ⟨_ :: before, met, i, f, rfl, .cons hexp hf hbefore, hmet, hi, hkey⟩

/-- **A chain is known by its positions**, because a selection set has one expansion. -/
theorem Chain.eq_of_positions (h : Chain fragments root path links) {links' : List (Nat × Field)}
    (h' : Chain fragments root path links') (hpos : positions links = positions links') :
    links = links' := by
  induction h generalizing links' with
  | nil =>
    cases h'
    rfl
  | @cons s met i f path links hexp hf _ ih =>
    generalize hkey : f.responseKey = key at h'
    cases h' with
    | @cons _ met' j g _ tail hexp' hf' htail =>
      rw [positions, positions, List.map_cons, List.map_cons, List.cons.injEq] at hpos
      obtain ⟨hij, htails⟩ := hpos
      dsimp only at hij
      rw [hexp.unique hexp', hij, hf'] at hf
      cases hf
      rw [hij, ih htail htails]

end

/-! ## The order of chains -/

/-- Lists of the same length are compared at the first place where they differ, so whatever follows
does not count. -/
theorem append_lt_append {l m : List Nat} (hlen : l.length = m.length) (h : l < m)
    (l' m' : List Nat) : l ++ l' < m ++ m' := by
  induction l generalizing m with
  | nil =>
    cases m with
    | nil => exact absurd h (List.lt_irrefl [])
    | cons b m => cases hlen
  | cons a l ih =>
    cases m with
    | nil => cases hlen
    | cons b m =>
      rw [List.cons_append, List.cons_append, List.cons_lt_cons_iff]
      rcases List.cons_lt_cons_iff.1 h with hab | ⟨hab, hlt⟩
      · exact Or.inl hab
      · exact Or.inr ⟨hab, ih (Nat.succ.inj hlen) hlt⟩

/-- The entries of a list, each with its position, stand in the order of the positions. -/
theorem pairwise_zipIdx {α : Type} (l : List α) :
    l.zipIdx.Pairwise fun x y ↦ x.2 < y.2 := by
  have h : (l.zipIdx.map Prod.snd).Pairwise (· < ·) := by
    rw [List.zipIdx_map_snd]
    exact List.pairwise_lt_range'
  exact List.pairwise_map.1 h

/-- Lists in an order that puts nothing before itself, nor two before each other, are equal if they
have the same elements. -/
theorem eq_of_pairwise_of_mem_iff {α : Type} {r : α → α → Prop} (hasymm : ∀ a b, r a b → ¬ r b a)
    {l m : List α} (hl : l.Pairwise r) (hm : m.Pairwise r) (hmem : ∀ a, a ∈ l ↔ a ∈ m) :
    l = m := by
  have hnodup {l : List α} (hl : l.Pairwise r) : l.Nodup := by
    refine hl.imp fun {a b} hab heq ↦ ?_
    subst heq
    exact hasymm a a hab hab
  have hperm : l.Perm m := (List.perm_ext_iff_of_nodup (hnodup hl) (hnodup hm)).2 hmem
  exact hperm.eq_of_pairwise (fun a b _ _ hab hba ↦ absurd hba (hasymm a b hab)) hl hm

/-! ## All chains along a path -/

/-- All chains along a path, each once, in the lexicographic order of their positions. -/
structure Listing (fragments : FragmentTable) (root : List Selection) (path : List String)
    (chains : List (List (Nat × Field))) : Prop where
  /-- Earlier chains have smaller positions. -/
  sorted : chains.Pairwise fun c d ↦ positions c < positions d
  /-- The chains are all there, and nothing else is. -/
  mem_iff (c : List (Nat × Field)) : c ∈ chains ↔ Chain fragments root path c

/-- The one chain along the path without keys. -/
theorem Listing.nil (fragments : FragmentTable) (root : List Selection) :
    Listing fragments root [] [[]] := by
  refine ⟨List.pairwise_singleton _ _, fun c ↦ ?_⟩
  rw [List.mem_singleton]
  constructor
  · rintro rfl
    exact .nil root
  · intro h
    cases h
    rfl

/-- There is at most one listing: the order puts no chain before itself, nor two before each
other. -/
theorem Listing.unique {fragments : FragmentTable} {root : List Selection} {path : List String}
    {chains chains' : List (List (Nat × Field))} (h : Listing fragments root path chains)
    (h' : Listing fragments root path chains') : chains = chains' :=
  eq_of_pairwise_of_mem_iff (fun _ _ ↦ List.lt_asymm) h.sorted h'.sorted
    fun c ↦ (h.mem_iff c).trans (h'.mem_iff c).symm

/-- A chain with each of the fields with a key that can follow it. -/
def extensions (key : String) (met : List Field) (links : List (Nat × Field)) :
    List (List (Nat × Field)) :=
  (met.zipIdx.filter fun x ↦ x.1.responseKey = key).map fun x ↦ links ++ [(x.2, x.1)]

theorem mem_extensions {key : String} {met : List Field} {links c : List (Nat × Field)} :
    c ∈ extensions key met links ↔
      ∃ i f, met[i]? = some f ∧ f.responseKey = key ∧ c = links ++ [(i, f)] := by
  rw [extensions, List.mem_map]
  constructor
  · rintro ⟨⟨f, i⟩, hx, rfl⟩
    obtain ⟨hmem, hkey⟩ := List.mem_filter.1 hx
    exact ⟨i, f, List.mk_mem_zipIdx_iff_getElem?.1 hmem, by simpa using hkey, rfl⟩
  · rintro ⟨i, f, hi, hkey, rfl⟩
    refine ⟨(f, i), List.mem_filter.2 ⟨List.mk_mem_zipIdx_iff_getElem?.2 hi, ?_⟩, rfl⟩
    simpa using hkey

theorem pairwise_extensions (key : String) (met : List Field) (links : List (Nat × Field)) :
    (extensions key met links).Pairwise fun c d ↦ positions c < positions d := by
  rw [extensions, List.pairwise_map]
  refine ((pairwise_zipIdx met).filter _).imp fun {x y} hxy ↦ ?_
  rw [positions_concat, positions_concat]
  exact List.append_left_lt (List.cons_lt_cons_iff.2 (Or.inl hxy))

theorem map_endField?_extensions (key : String) (met : List Field)
    (links : List (Nat × Field)) :
    (extensions key met links).map endField? = (matchesOf key met).map some := by
  have hmatches : matchesOf key met
      = (met.zipIdx.filter fun x ↦ x.1.responseKey = key).map Prod.fst := by
    rw [matchesOf, ← List.zipIdx_map_fst 0 met, List.filter_map, List.zipIdx_map_fst]
    rfl
  rw [hmatches, extensions, List.map_map, List.map_map]
  refine List.map_congr_left fun x _ ↦ ?_
  exact endField?_concat links x.2 x.1

section

variable {fragments : FragmentTable} {root : List Selection} {path : List String}
  {chains : List (List (Nat × Field))}

/-- **All chains along a path with one more key**, where what the chains along the path lead to can
be expanded. -/
theorem Listing.extend (h : Listing fragments root path chains)
    (hexp : ∀ c ∈ chains, (traverse fragments .expand [] (endSelections root c)).fault = none)
    (key : String) :
    Listing fragments root (path ++ [key]) (chains.flatMap fun c ↦
      extensions key (traverse fragments .expand [] (endSelections root c)).fields c) := by
  constructor
  · rw [List.pairwise_flatMap]
    refine ⟨fun c _ ↦ pairwise_extensions key _ c, ?_⟩
    refine h.sorted.imp_of_mem fun {c d} hc hd hlt c' hc' d' hd' ↦ ?_
    obtain ⟨i, f, -, -, rfl⟩ := mem_extensions.1 hc'
    obtain ⟨j, g, -, -, rfl⟩ := mem_extensions.1 hd'
    have hlen : (positions c).length = (positions d).length := by
      rw [((h.mem_iff c).1 hc).length_positions, ((h.mem_iff d).1 hd).length_positions]
    rw [positions_concat, positions_concat]
    exact append_lt_append hlen hlt [i] [j]
  · intro c'
    rw [List.mem_flatMap]
    constructor
    · rintro ⟨c, hc, hc'⟩
      obtain ⟨i, f, hi, rfl, rfl⟩ := mem_extensions.1 hc'
      exact ((h.mem_iff c).1 hc).concat (expands_of_traverse (hexp c hc)) hi
    · intro hc'
      obtain ⟨c, met, i, f, rfl, hc, hmet, hi, hkey⟩ := hc'.exists_of_concat
      refine ⟨c, (h.mem_iff c).2 hc, mem_extensions.2 ⟨i, f, ?_, hkey, rfl⟩⟩
      rw [(expands_iff_traverse.1 hmet).2]
      exact hi

/-- The chains end with the matches of the level. -/
theorem map_endField?_extend (key : String)
    (hexp : ∀ c ∈ chains, (traverse fragments .expand [] (endSelections root c)).fault = none) :
    (chains.flatMap fun c ↦
        extensions key (traverse fragments .expand [] (endSelections root c)).fields c).map
          endField?
      = (matchesOf key (traverseAll fragments .expand (chains.map (endSelections root))).fields).map
          some := by
  have hnone : (traverseAll fragments .expand (chains.map (endSelections root))).fault = none := by
    rw [traverseAll_fault_eq_none_iff]
    intro s hs
    obtain ⟨c, hc, rfl⟩ := List.mem_map.1 hs
    exact hexp c hc
  rw [fields_traverseAll hnone, List.flatMap_map, matchesOf, List.filter_flatMap, List.map_flatMap,
    List.map_flatMap]
  simp only [map_endField?_extensions, matchesOf]

end

end RequestedFields
