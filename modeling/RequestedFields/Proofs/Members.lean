import RequestedFields.Json
import RequestedFields.Proofs.Insertions

/-!
# Members of objects

The members of a JSON object are a list of names with values.  Setting a member changes one entry of
the list and none of the others; taking a member out leaves the others in their order.  None of this
needs the names to be distinct.

They are distinct in every object that a reader or a program builds, and a value is **well-formed**
if that is so at every depth.  Only then is equality of objects, which looks the members of one up
in the other, equality at all: a value that has a name twice does not even equal itself.

* `upsert_eq_of_first`, `upsert_upsert`, `filter_upsert` — an entry that is put into a list of
  entries with keys.
* `Json.memberNames`, `Json.without` — the names of an object's members; the object without one of
  them.
* `Json.setMember_setMember`, `Json.without_setMember`, `Json.mem_setMember_iff` — a member that is
  set.
* `Json.WellFormed` — no object has a name twice.
* `Json.sameMembers_iff`, `Json.same_self` — what the comparison of members asks for; well-formed
  values equal themselves.
-/

set_option autoImplicit false

namespace RequestedFields

/-! ## Putting in an entry -/

/-- An element with a key has a first one with that key. -/
theorem exists_first_of_mem_map {κ β : Type} {key : β → κ} {l : List β} {k : κ}
    (h : k ∈ l.map key) :
    ∃ earlier b later, l = earlier ++ b :: later ∧ key b = k ∧ k ∉ earlier.map key := by
  obtain ⟨names, behind, hsplit, hfirst⟩ := List.eq_append_cons_of_mem h
  obtain ⟨earlier, rest, rfl, rfl, hrest⟩ := List.map_eq_append_iff.1 hsplit
  obtain ⟨b, later, rfl, hb, -⟩ := List.map_eq_cons_iff.1 hrest
  exact ⟨earlier, b, later, rfl, hb, hfirst⟩

section

variable {κ β : Type} [DecidableEq κ] {key : β → κ}

/-- Where an element with its key is met first, the new one takes its place. -/
theorem upsert_eq_of_first {earlier later : List β} {old b : β} (hkey : key old = key b)
    (hfirst : key b ∉ earlier.map key) :
    upsert key b (earlier ++ old :: later) = earlier ++ b :: later := by
  induction earlier with
  | nil => rw [List.nil_append, upsert, if_pos hkey, List.nil_append]
  | cons a earlier ih =>
    rw [List.map_cons, List.mem_cons, not_or] at hfirst
    rw [List.cons_append, upsert, if_neg (Ne.symm hfirst.1), ih hfirst.2, List.cons_append]

/-- **The last of several elements with one key stays.** -/
theorem upsert_upsert {b c : β} (hkey : key b = key c) (l : List β) :
    upsert key c (upsert key b l) = upsert key c l := by
  induction l with
  | nil => simp [upsert, hkey]
  | cons a l ih =>
    by_cases ha : key a = key b
    · rw [upsert, if_pos ha, upsert, if_pos hkey, upsert, if_pos (ha.trans hkey)]
    · have hc : key a ≠ key c := hkey ▸ ha
      rw [upsert, if_neg ha, upsert, if_neg hc, upsert, if_neg hc, ih]

/-- Elements with other keys stay as they are and where they are. -/
theorem filter_upsert (key : β → κ) (b : β) (l : List β) :
    (upsert key b l).filter (fun a ↦ key a ≠ key b) = l.filter (fun a ↦ key a ≠ key b) := by
  induction l with
  | nil => simp [upsert]
  | cons a l ih =>
    rw [upsert]
    by_cases ha : key a = key b
    · rw [if_pos ha, List.filter_cons_of_neg (by simp), List.filter_cons_of_neg (by simp [ha])]
    · rw [if_neg ha, List.filter_cons_of_pos (by simpa using ha),
        List.filter_cons_of_pos (by simpa using ha), ih]

/-- With distinct keys, an element is in the list if it is what is found under its key. -/
theorem mem_iff_lookup {l : List β} (h : (l.map key).Nodup) {b : β} :
    b ∈ l ↔ lookup key (key b) l = some b :=
  ⟨lookup_of_mem key h, mem_of_lookup key⟩

end

theorem Number.same_self (n : Number) : n.same n = true := by
  cases n <;> simp [Number.same, Decimal.same]

namespace Json

/-! ## Names -/

/-- The names of the members of an object, in order. -/
def memberNames : Json → List String
  | .object members => members.map Prod.fst
  | _ => []

/-- The object without the members of a name, all others in their order. -/
def without (name : String) : Json → Json
  | .object members => .object (members.filter fun member ↦ member.1 ≠ name)
  | other => other

/-- Nothing is taken out exactly if there is no member of that name. -/
theorem without_eq_self_iff {name : String} {v : Json} :
    v.without name = v ↔ name ∉ v.memberNames := by
  cases v with
  | object members =>
    rw [without, memberNames, Json.object.injEq, List.filter_eq_self]
    simp only [decide_eq_true_eq, List.mem_map, not_exists, not_and, ne_eq]
  | _ => simp [without, memberNames]

/-! ## Setting a member -/

/-- Of two values that are set, the second stays. -/
theorem setMember_setMember (name : String) (first second : Json)
    (members : List (String × Json)) :
    setMember name second (setMember name first members) = setMember name second members := by
  have hkey : Prod.fst (name, first) = Prod.fst (name, second) := rfl
  exact upsert_upsert hkey members

/-- The other members are left alone. -/
theorem without_setMember (name : String) (value : Json) (members : List (String × Json)) :
    (object (setMember name value members)).without name = (object members).without name := by
  have hfilter := filter_upsert Prod.fst (name, value) members
  rw [without, without, setMember, hfilter]

/-- The names do not depend on the value that is set. -/
theorem map_fst_setMember_congr (name : String) (value value' : Json)
    (members : List (String × Json)) :
    (setMember name value members).map Prod.fst = (setMember name value' members).map Prod.fst := by
  rw [setMember, setMember, map_key_upsert, map_key_upsert]

theorem mem_setMember_iff {name : String} {value : Json} {members : List (String × Json)}
    (hnames : (members.map Prod.fst).Nodup) {member : String × Json} :
    member ∈ setMember name value members ↔
      member = (name, value) ∨ member ∈ members ∧ member.1 ≠ name := by
  rw [setMember, mem_iff_lookup (nodup_map_key_upsert Prod.fst (name, value) hnames),
    lookup_upsert, mem_iff_lookup hnames]
  by_cases hname : member.1 = name
  · simp [hname, eq_comm]
  · have hne : member ≠ (name, value) := fun h ↦ hname (congrArg Prod.fst h)
    simp [hname, hne]

/-! ## Well-formed values -/

/-- No object in the value has a name twice. -/
inductive WellFormed : Json → Prop
  | scalar {v : Json} (h : v.isContainer = false) : WellFormed v
  | list {elements : List Json} (h : ∀ element ∈ elements, WellFormed element) :
      WellFormed (.list elements)
  | object {members : List (String × Json)} (hnames : (members.map Prod.fst).Nodup)
      (h : ∀ member ∈ members, WellFormed member.2) : WellFormed (.object members)

theorem sameElements_self {elements : List Json}
    (h : ∀ element ∈ elements, element.same element = true) :
    sameElements elements elements = true := by
  induction elements with
  | nil => rw [sameElements]
  | cons element rest ih =>
    rw [sameElements, h element List.mem_cons_self,
      ih fun other hmem ↦ h other (List.mem_cons_of_mem _ hmem)]
    rfl

/-- Members are compared by looking each of them up. -/
theorem sameMembers_iff {members others : List (String × Json)} :
    sameMembers members others = true ↔
      ∀ member ∈ members, ∃ other, lookup Prod.fst member.1 others = some other ∧
        member.2.same other.2 = true := by
  induction members with
  | nil => simp [sameMembers]
  | cons member rest ih =>
    rw [sameMembers, Bool.and_eq_true, ih, List.forall_mem_cons]
    refine and_congr_left fun _ ↦ ?_
    cases lookup Prod.fst member.1 others with
    | none => simp
    | some other => simp

/-- **Well-formed values equal themselves.** -/
theorem same_self {v : Json} (h : v.WellFormed) : v.same v = true := by
  induction h with
  | @scalar v hscalar =>
    cases v with
    | number n => rw [same, Number.same_self]
    | list elements => cases hscalar
    | object members => cases hscalar
    | _ => simp [same]
  | list _ ih => rw [same, sameElements_self ih]
  | object hnames _ ih =>
    rw [same, sameMembers_iff.2 fun member hmem ↦
      ⟨member, lookup_of_mem Prod.fst hnames hmem, ih member hmem⟩]
    simp

/-- **Objects that differ in one member are equal exactly if its values are.** -/
theorem same_setMember {name : String} {value value' : Json} {members : List (String × Json)}
    (h : (object members).WellFormed) :
    (object (setMember name value members)).same (object (setMember name value' members))
      = value.same value' := by
  cases h with
  | scalar hscalar => cases hscalar
  | object hnames hvalues =>
    have hlength : (setMember name value members).length
        = (setMember name value' members).length := by
      simpa using congrArg List.length (map_fst_setMember_congr name value value' members)
    rw [same, beq_iff_eq.2 hlength, Bool.true_and, Bool.eq_iff_iff, sameMembers_iff]
    constructor
    · intro hall
      obtain ⟨other, hother, hsame⟩ := hall _ ((mem_setMember_iff hnames).2 (.inl rfl))
      rw [lookup_setMember, if_pos rfl] at hother
      cases hother
      exact hsame
    · rintro hsame member hmem
      rw [lookup_setMember]
      rcases (mem_setMember_iff hnames).1 hmem with rfl | ⟨hmem, hname⟩
      · exact ⟨_, if_pos rfl, hsame⟩
      · -- any other member is found as it is, and equals itself
        refine ⟨member, ?_, same_self (hvalues member hmem)⟩
        rw [if_neg hname, lookup_of_mem Prod.fst hnames hmem]

end Json

end RequestedFields
