import Mathlib.Control.Monad.Basic
import RequestedFields.Document
import RequestedFields.Proofs.Occurrences

/-!
# What following a path means

`PathWalk.ofRoot` goes level by level, with all nodes of a level at once, and stops at the first
level where something is wrong.  Nothing of this shows in what a path means, which is said with
chains alone:

* A path leads to **nodes** if at every level all selection sets expand and there is a chain.  The
  nodes are the last fields of all chains along the path, in the lexicographic order of their
  positions; a field that several chains end with stands there several times.
* Otherwise there is a **first level that fails**.  Either one of its selection sets does not
  expand, and the error is the fault of the first that does not; or all of them do and there is no
  chain, and the error names the keys up to this level.

A level is written as the keys `walked` that lead to it and the `key` that is looked for in it, so
that the levels of a path are its prefixes `walked ++ [key]`.

* `Scans`, `Occurs`, `Passes` — the selection sets of a level expand; there is a chain along a path;
  both, for all levels of a path.
* `FirstFault`, `LevelFails` — what is wrong with a level, and the error for it.
* `PathMeans` — the meaning, and `PathMeans.unique`, that there is only one.
* `pathMeans_follow` — **the walk computes the meaning**, by induction on the levels.
-/

set_option autoImplicit false

namespace RequestedFields

/-! ## The meaning -/

section

variable (fragments : FragmentTable) (root : List Selection)

/-- Everything that the chains along a path lead to has an expansion. -/
def Scans (path : List String) : Prop :=
  ∀ links, Chain fragments root path links →
    ∃ met, Expands fragments .expand (endSelections root links) met

/-- There is a chain along a path. -/
def Occurs (path : List String) : Prop := ∃ links, Chain fragments root path links

/-- Nothing is wrong at any level of a path. -/
def Passes (path : List String) : Prop :=
  ∀ walked key, walked ++ [key] <+: path →
    Scans fragments root walked ∧ Occurs fragments root (walked ++ [key])

/-- The first of the selection sets that the chains along a path lead to, in the order of the
chains, that does not expand has this fault. -/
def FirstFault (path : List String) (e : FragmentError) : Prop :=
  ∃ links, Chain fragments root path links ∧
    (traverse fragments .expand [] (endSelections root links)).fault = some e ∧
    ∀ links', Chain fragments root path links' → positions links' < positions links →
      ∃ met, Expands fragments .expand (endSelections root links') met

/-- What can be wrong at the level where the keys `walked` lead to and `key` is looked for. -/
inductive LevelFails (walked : List String) (key : String) : PathError → Prop
  | notFound (hscans : Scans fragments root walked)
      (hnone : ¬ Occurs fragments root (walked ++ [key])) :
      LevelFails walked key (.fieldNotFound (walked ++ [key]))
  | fragment {e : FragmentError} (hfirst : FirstFault fragments root walked e) :
      LevelFails walked key (.fragment e)

/-- What a path means: the ends of all chains along it, or what is wrong at the first level that
fails. -/
inductive PathMeans (path : List String) : Except PathError (List Field) → Prop
  | found {nodes : List Field} {chains : List (List (Nat × Field))}
      (hpasses : Passes fragments root path) (hchains : Listing fragments root path chains)
      (hends : chains.map endField? = nodes.map some) : PathMeans path (.ok nodes)
  | failed {walked : List String} {key : String} {e : PathError}
      (hlevel : walked ++ [key] <+: path) (hpasses : Passes fragments root walked)
      (hfails : LevelFails fragments root walked key e) : PathMeans path (.error e)

end

section

variable {fragments : FragmentTable} {root : List Selection}

/-! ## There is one meaning -/

theorem FirstFault.not_scans {path : List String} {e : FragmentError}
    (h : FirstFault fragments root path e) : ¬ Scans fragments root path := by
  intro hscans
  obtain ⟨links, hchain, hfault, -⟩ := h
  rw [exists_expands_iff.1 (hscans links hchain)] at hfault
  cases hfault

/-- Of two chains that lead to a first fault neither comes before the other. -/
theorem FirstFault.unique {path : List String} {e e' : FragmentError}
    (h : FirstFault fragments root path e) (h' : FirstFault fragments root path e') : e = e' := by
  obtain ⟨links, hchain, hfault, hbefore⟩ := h
  obtain ⟨links', hchain', hfault', hbefore'⟩ := h'
  have hnlt : ¬ positions links < positions links' := by
    intro hlt
    rw [exists_expands_iff.1 (hbefore' links hchain hlt)] at hfault
    cases hfault
  have hngt : ¬ positions links' < positions links := by
    intro hgt
    rw [exists_expands_iff.1 (hbefore links' hchain' hgt)] at hfault'
    cases hfault'
  have hpos : positions links = positions links' := List.le_antisymm hngt hnlt
  obtain rfl := hchain.eq_of_positions hchain' hpos
  rw [hfault] at hfault'
  exact Option.some.inj hfault'

/-- A level that fails does not pass. -/
theorem LevelFails.not_passes {walked : List String} {key : String} {e : PathError}
    (h : LevelFails fragments root walked key e) :
    ¬ (Scans fragments root walked ∧ Occurs fragments root (walked ++ [key])) := by
  rintro ⟨hscans, hoccurs⟩
  cases h with
  | notFound _ hnone => exact hnone hoccurs
  | fragment hfirst => exact hfirst.not_scans hscans

/-- A level fails in one way. -/
theorem LevelFails.unique {walked : List String} {key : String} {e e' : PathError}
    (h : LevelFails fragments root walked key e) (h' : LevelFails fragments root walked key e') :
    e = e' := by
  cases h with
  | notFound hscans _ =>
    cases h' with
    | notFound _ _ => rfl
    | fragment hfirst => exact absurd hscans hfirst.not_scans
  | fragment hfirst =>
    cases h' with
    | notFound hscans _ => exact absurd hscans hfirst.not_scans
    | fragment hfirst' => rw [hfirst.unique hfirst']

/-- The path without keys has no level. -/
theorem Passes.nil : Passes fragments root [] := by
  intro walked key hlevel
  exact absurd (List.prefix_nil.1 hlevel) (List.append_ne_nil_of_right_ne_nil walked (by simp))

/-- The last level of a path passes after all others. -/
theorem Passes.concat {walked : List String} {key : String} (h : Passes fragments root walked)
    (hscans : Scans fragments root walked) (hoccurs : Occurs fragments root (walked ++ [key])) :
    Passes fragments root (walked ++ [key]) := by
  intro before next hlevel
  rcases List.prefix_concat_iff.1 hlevel with heq | hbefore
  · obtain ⟨rfl, hnext⟩ := List.append_inj' heq rfl
    cases hnext
    exact ⟨hscans, hoccurs⟩
  · exact h before next hbefore

/-- Two levels that fail, one at or above the other: they are one level, since all levels above one
that fails pass. -/
theorem LevelFails.eq_of_isPrefix {walked walked' : List String} {key key' : String}
    {e e' : PathError} (hpre : walked ++ [key] <+: walked' ++ [key'])
    (hfails : LevelFails fragments root walked key e) (hpasses' : Passes fragments root walked')
    (hfails' : LevelFails fragments root walked' key' e') : e = e' := by
  rcases List.prefix_concat_iff.1 hpre with heq | habove
  · obtain ⟨rfl, hkey⟩ := List.append_inj' heq rfl
    cases hkey
    exact hfails.unique hfails'
  · exact absurd (hpasses' walked key habove) hfails.not_passes

/-- **A path means one thing.** -/
theorem PathMeans.unique {path : List String} {o o' : Except PathError (List Field)}
    (h : PathMeans fragments root path o) (h' : PathMeans fragments root path o') : o = o' := by
  cases h with
  | found hpasses hchains hends =>
    cases h' with
    | found _ hchains' hends' =>
      rw [hchains.unique hchains', hends'] at hends
      rw [List.map_inj_right (fun _ _ ↦ Option.some.inj) |>.1 hends]
    | failed hlevel _ hfails => exact absurd (hpasses _ _ hlevel) hfails.not_passes
  | failed hlevel hpasses hfails =>
    cases h' with
    | found hpasses' _ _ => exact absurd (hpasses' _ _ hlevel) hfails.not_passes
    | failed hlevel' hpasses' hfails' =>
      rcases List.prefix_or_prefix_of_prefix hlevel hlevel' with hpre | hpre
      · rw [hfails.eq_of_isPrefix hpre hpasses' hfails']
      · rw [hfails'.eq_of_isPrefix hpre hpasses hfails]

/-! ## The walk computes it -/

/-- The selection sets of the next level are those below the ends of the chains. -/
theorem map_endSelections {chains : List (List (Nat × Field))} {nodes : List Field}
    (h : chains.map endField? = nodes.map some) :
    chains.map (endSelections root) = nodes.map Field.selections := by
  induction chains generalizing nodes with
  | nil =>
    rw [List.map_nil, List.nil_eq, List.map_eq_nil_iff] at h
    rw [h, List.map_nil, List.map_nil]
  | cons c chains ih =>
    obtain ⟨f, others, rfl, hf, hothers⟩ := List.map_eq_cons_iff.1 h.symm
    rw [List.map_cons, List.map_cons, endSelections_of_endField? hf.symm, ih hothers.symm]

/-- The scan of a level stops at the first chain that leads to a fault: every chain with smaller
positions stands before it in the listing. -/
theorem firstFault_of_traverseAll {walked : List String} {chains : List (List (Nat × Field))}
    {e : FragmentError} (h : Listing fragments root walked chains)
    (hfault : (traverseAll fragments .expand (chains.map (endSelections root))).fault = some e) :
    FirstFault fragments root walked e := by
  obtain ⟨_, s, _, hsets, hbefore, hs⟩ := exists_first_fault hfault
  obtain ⟨before, others, rfl, rfl, hothers⟩ := List.map_eq_append_iff.1 hsets
  obtain ⟨links, behind, rfl, rfl, -⟩ := List.map_eq_cons_iff.1 hothers
  have hlinks : Chain fragments root walked links :=
    (h.mem_iff links).1 (List.mem_append_right before List.mem_cons_self)
  refine ⟨links, hlinks, hs, fun links' hchain hlt ↦ ?_⟩
  rcases List.mem_append.1 ((h.mem_iff links').2 hchain) with hmem | hmem
  · exact exists_expands_iff.2 (hbefore _ (List.mem_map_of_mem hmem))
  · have hsorted := (List.pairwise_append.1 h.sorted).2.1
    rcases List.mem_cons.1 hmem with rfl | hmem
    · exact absurd hlt (List.lt_irrefl _)
    · have hgt : positions links < positions links' := List.rel_of_pairwise_cons hsorted hmem
      exact absurd hlt (List.lt_asymm hgt)

/-- **One level**: with all chains so far in order, the level finds the ends of all chains that are
one key longer, in order, or it fails for the reason it gives. -/
theorem level_means {walked : List String} {sets : List (List Selection)}
    {chains : List (List (Nat × Field))} (h : Listing fragments root walked chains)
    (hsets : chains.map (endSelections root) = sets) (key : String) :
    match (PathWalk.level fragments walked sets key).outcome with
    | .error e => LevelFails fragments root walked key e
    | .ok nodes => Scans fragments root walked ∧ Occurs fragments root (walked ++ [key]) ∧
        ∃ longer, Listing fragments root (walked ++ [key]) longer ∧
          longer.map endField? = nodes.map some := by
  subst hsets
  rw [PathWalk.level]
  dsimp only
  cases hfault : (traverseAll fragments .expand (chains.map (endSelections root))).fault with
  | some e => exact .fragment (firstFault_of_traverseAll h hfault)
  | none =>
    have hexp : ∀ c ∈ chains,
        (traverse fragments .expand [] (endSelections root c)).fault = none := by
      intro c hc
      exact traverseAll_fault_eq_none_iff.1 hfault _ (List.mem_map_of_mem hc)
    have hscans : Scans fragments root walked :=
      fun links hchain ↦ exists_expands_iff.2 (hexp links ((h.mem_iff links).2 hchain))
    have hlonger := h.extend hexp key
    have hends := map_endField?_extend key hexp
    cases hmatches : matchesOf key
        (traverseAll fragments .expand (chains.map (endSelections root))).fields with
    | nil =>
      rw [hmatches, List.map_nil, List.map_eq_nil_iff] at hends
      rw [hends] at hlonger
      refine .notFound hscans ?_
      rintro ⟨links, hchain⟩
      cases (hlonger.mem_iff links).2 hchain
    | cons f found =>
      rw [hmatches] at hends
      obtain ⟨links, others, hcons, -, -⟩ := List.map_eq_cons_iff.1 hends
      have hlinks : Chain fragments root (walked ++ [key]) links := by
        refine (hlonger.mem_iff links).1 ?_
        rw [hcons]
        exact List.mem_cons_self
      exact ⟨hscans, ⟨links, hlinks⟩, _, hlonger, hends⟩

/-- **The rest of a path**, from a level that all before it have passed. -/
theorem pathMeans_follow {walked : List String} {sets : List (List Selection)} {key : String}
    {rest : List String} {chains : List (List (Nat × Field))}
    (hpasses : Passes fragments root walked) (hchains : Listing fragments root walked chains)
    (hsets : chains.map (endSelections root) = sets) :
    PathMeans fragments root (walked ++ key :: rest)
      (PathWalk.follow fragments walked sets key rest).outcome := by
  induction rest generalizing walked sets key chains with
  | nil =>
    have hlevel := level_means hchains hsets key
    rw [PathWalk.follow]
    cases houtcome : (PathWalk.level fragments walked sets key).outcome with
    | error e =>
      rw [houtcome] at hlevel
      exact .failed List.prefix_rfl hpasses hlevel
    | ok nodes =>
      rw [houtcome] at hlevel
      obtain ⟨hscans, hoccurs, longer, hlonger, hends⟩ := hlevel
      exact .found (hpasses.concat hscans hoccurs) hlonger hends
  | cons next rest ih =>
    have hlevel := level_means hchains hsets key
    rw [PathWalk.follow]
    cases houtcome : (PathWalk.level fragments walked sets key).outcome with
    | error e =>
      rw [houtcome] at hlevel
      have hpre : walked ++ [key] <+: walked ++ key :: next :: rest :=
        ⟨next :: rest, by rw [List.append_assoc, List.singleton_append]⟩
      exact .failed hpre hpasses hlevel
    | ok nodes =>
      rw [houtcome] at hlevel
      obtain ⟨hscans, hoccurs, longer, hlonger, hends⟩ := hlevel
      have hbelow : PathMeans fragments root (walked ++ [key] ++ next :: rest) _ :=
        ih (hpasses.concat hscans hoccurs) hlonger (map_endSelections hends)
      rw [List.append_assoc] at hbelow
      exact hbelow

end

/-- **Following a path gives what the path means**, and it gives nodes exactly if nothing is wrong
at any level; following it in the text of a query gives the same, once an operation is selected. -/
theorem outcome_ofRoot_eq_iff_pathMeans (fragments : FragmentTable) (root : List Selection)
    (key : String) (rest : List String) :
    (∀ o, (PathWalk.ofRoot fragments root (key :: rest)).outcome = o ↔
      PathMeans fragments root (key :: rest) o) ∧
    ((∃ nodes, (PathWalk.ofRoot fragments root (key :: rest)).outcome = .ok nodes) ↔
      Passes fragments root (key :: rest)) ∧
    (∀ source operation d, Document.read source = .ok d → d.selectOperation operation = .ok root →
      .ofList d.fragments = fragments → ∀ o, PathMeans fragments root (key :: rest) o →
        (resolveText source operation (key :: rest)).outcome
          = match o with
            | .error e => .error (.path e)
            | .ok nodes => .ok ⟨nodes, fragments⟩) := by
  have hmeans : PathMeans fragments root (key :: rest)
      (PathWalk.ofRoot fragments root (key :: rest)).outcome :=
    pathMeans_follow .nil (.nil fragments root) rfl
  refine ⟨fun o ↦ ⟨?_, hmeans.unique⟩, ⟨?_, fun hpasses ↦ ?_⟩, ?_⟩
  · rintro rfl
    exact hmeans
  · rintro ⟨nodes, hnodes⟩
    rw [hnodes] at hmeans
    cases hmeans with
    | found hpasses _ _ => exact hpasses
  · cases houtcome : (PathWalk.ofRoot fragments root (key :: rest)).outcome with
    | ok nodes => exact ⟨nodes, rfl⟩
    | error e =>
      rw [houtcome] at hmeans
      cases hmeans with
      | failed hlevel _ hfails => exact absurd (hpasses _ _ hlevel) hfails.not_passes
  · rintro source operation d hread hselect rfl o ho
    have hpath := Document.outcome_resolvePath d.fragments root (key :: rest)
    rw [hmeans.unique ho] at hpath
    rw [resolveText_of_read hread hselect]
    exact hpath

/-- A node, and another one of the same key in a fragment that is spread before and behind it. -/
def spreadTwiceRoot : List Selection :=
  [.spread "F", .field ⟨none, "a", [.field (.leaf "b")]⟩, .spread "F"]

def spreadTwiceDocument : Document :=
  ⟨[.operation none spreadTwiceRoot,
    .fragment ⟨"F", "T", [.field ⟨none, "a", [.field ⟨some "b", "c", []⟩]⟩]⟩]⟩

/-- The text that it is read from. -/
def spreadTwiceText : String := "{...F a{b} ...F} fragment F on T{a{b:c}}"

/-- The field in the fragment ends two chains and stands twice among the nodes; no chain has the
name behind its alias. -/
theorem outcome_ofRoot_eq_iff_pathMeans_spreadTwice :
    Document.read spreadTwiceText = .ok spreadTwiceDocument ∧
      spreadTwiceDocument.selectOperation none = .ok spreadTwiceRoot ∧
      PathMeans (.ofList spreadTwiceDocument.fragments) spreadTwiceRoot ["a", "b"]
        (.ok [⟨some "b", "c", []⟩, .leaf "b", ⟨some "b", "c", []⟩]) ∧
      (resolveText spreadTwiceText none ["a", "b"]).outcome
        = .ok ⟨[⟨some "b", "c", []⟩, .leaf "b", ⟨some "b", "c", []⟩],
            .ofList spreadTwiceDocument.fragments⟩ ∧
      PathMeans (.ofList spreadTwiceDocument.fragments) spreadTwiceRoot ["a", "c"]
        (.error (.fieldNotFound ["a", "c"])) ∧
      (resolveText spreadTwiceText none ["a", "c"]).outcome
        = .error (.path (.fieldNotFound ["a", "c"])) := by
  have hread : Document.read spreadTwiceText = .ok spreadTwiceDocument := by decide +kernel
  have hnodes : (PathWalk.ofRoot (.ofList spreadTwiceDocument.fragments) spreadTwiceRoot
      ["a", "b"]).outcome = .ok [⟨some "b", "c", []⟩, .leaf "b", ⟨some "b", "c", []⟩] := by cbv
  have hnone : (PathWalk.ofRoot (.ofList spreadTwiceDocument.fragments) spreadTwiceRoot
      ["a", "c"]).outcome = .error (.fieldNotFound ["a", "c"]) := by cbv
  obtain ⟨hmeans, -, htext⟩ := outcome_ofRoot_eq_iff_pathMeans
    (.ofList spreadTwiceDocument.fragments) spreadTwiceRoot "a" ["b"]
  obtain ⟨hmeans', -, htext'⟩ := outcome_ofRoot_eq_iff_pathMeans
    (.ofList spreadTwiceDocument.fragments) spreadTwiceRoot "a" ["c"]
  have hfound := (hmeans _).1 hnodes
  have hfails := (hmeans' _).1 hnone
  exact ⟨hread, rfl, hfound, htext _ _ _ hread rfl rfl _ hfound, hfails,
    htext' _ _ _ hread rfl rfl _ hfails⟩

end RequestedFields
