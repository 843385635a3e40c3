import RequestedFields.Proofs.Members
import RequestedFields.Tagging

/-!
# The inline form of a context

A host that exchanges plain JSON writes the context of a tagged object into the object, as its
member `__context`, and reads it from there.  The object may have such a member of its own, anywhere
among the others; it may have been written before; the context may be an object that holds a context
itself, or may have no JSON form at all.  This file says what holds regardless.

The payload is looked at before the context.  **What is not an object has no inline form, whatever
the context**, and an object has one exactly if the context has a JSON form.  In the inline form the
context is read back, all other members are untouched, and taking the context out again gives the
payload back unless the payload held one before: that one is overwritten, and for good.  Overwriting
is all that happens if an inline form is tagged and written again.

* `ContextPlaced` — where the context stands: in the place of the payload's own, or last.
* `Json.IsInlineForm` — what can be told from the inline form, and `Json.isInlineForm_iff`, that
  this is all there is to it.
* `Tagged.inline_eq_ok_iff`, `Tagged.inline_eq_notInlinable_iff`,
  `Tagged.inline_eq_serialization_iff` — when there is an inline form, and what is wrong if there is
  none.
* `Tagged.inline_again` — the last context stays.
* `Json.IsInlineForm.eq_iff`, `Json.IsInlineForm.same_eq` — inline forms are equal exactly if the
  contexts are, in either sense of equality.
* `inline_laws` — all of it.
-/

set_option autoImplicit false

namespace RequestedFields

/-! ## The place of the context -/

/-- The members of an object, and those of its inline form. -/
inductive ContextPlaced (context : Json) : (members after : List (String × Json)) → Prop
  /-- There was no context, and it comes last. -/
  | last {members : List (String × Json)} (hnone : contextMember ∉ members.map Prod.fst) :
      ContextPlaced context members (members ++ [(contextMember, context)])
  /-- The context takes the place of another one. -/
  | instead {earlier later : List (String × Json)} (old : Json)
      (hfirst : contextMember ∉ earlier.map Prod.fst) :
      ContextPlaced context (earlier ++ (contextMember, old) :: later)
        (earlier ++ (contextMember, context) :: later)

theorem contextPlaced_iff {context : Json} {members after : List (String × Json)} :
    ContextPlaced context members after ↔
      Json.setMember contextMember context members = after := by
  constructor
  · rintro (hnone | ⟨old, hfirst⟩)
    · exact KeyedList.upsert_of_notMem hnone
    · exact upsert_eq_of_first rfl hfirst
  · rintro rfl
    by_cases hmem : contextMember ∈ members.map Prod.fst
    · obtain ⟨earlier, ⟨name, old⟩, later, rfl, hname, hfirst⟩ := exists_first_of_mem_map hmem
      obtain rfl : name = contextMember := hname
      have hset : Json.setMember contextMember context (earlier ++ (contextMember, old) :: later)
          = earlier ++ (contextMember, context) :: later := upsert_eq_of_first rfl hfirst
      rw [hset]
      exact .instead old hfirst
    · rw [Json.setMember, KeyedList.upsert_of_notMem hmem]
      exact .last hmem

namespace Json

/-! ## What can be told from an inline form -/

/-- What can be told from the inline form `w` of the payload `v` with this context. -/
structure IsInlineForm (v context w : Json) : Prop where
  /-- Both are objects, and only one place differs. -/
  placed : ∃ members after, v = .object members ∧ w = .object after ∧
    ContextPlaced context members after
  /-- The context is read from it. -/
  read : w.inlineContext? = some context
  /-- All other members are those of the payload, with the same values in the same order. -/
  others : w.without contextMember = v.without contextMember
  /-- Without the context it is the payload exactly if that held none. -/
  restored_iff : w.without contextMember = v ↔ contextMember ∉ v.memberNames

/-- **The inline form is the object with the context set**, and can be told by this. -/
theorem isInlineForm_iff {v context w : Json} :
    v.IsInlineForm context w ↔
      ∃ members, v = .object members ∧ .object (setMember contextMember context members) = w := by
  constructor
  · rintro ⟨⟨members, after, rfl, rfl, hplaced⟩, -, -, -⟩
    exact ⟨members, rfl, congrArg Json.object (contextPlaced_iff.1 hplaced)⟩
  · rintro ⟨members, rfl, rfl⟩
    have hothers := without_setMember contextMember context members
    refine ⟨⟨members, _, rfl, rfl, contextPlaced_iff.2 rfl⟩, ?_, hothers, ?_⟩
    · rw [inlineContext?, member?, lookup_setMember, if_pos rfl]
      rfl
    · rw [hothers]
      exact without_eq_self_iff

/-- A payload has one inline form with a context, and has it with no other context. -/
theorem IsInlineForm.eq_iff {v context context' w w' : Json} (h : v.IsInlineForm context w)
    (h' : v.IsInlineForm context' w') : w = w' ↔ context = context' := by
  constructor
  · rintro rfl
    exact Option.some.inj (h.read.symm.trans h'.read)
  · rintro rfl
    obtain ⟨members, rfl, rfl⟩ := isInlineForm_iff.1 h
    obtain ⟨members', hmembers, rfl⟩ := isInlineForm_iff.1 h'
    cases hmembers
    rfl

/-- **Compared without regard to the order of members, inline forms are equal if the contexts
are.** -/
theorem IsInlineForm.same_eq {v context context' w w' : Json} (hv : v.WellFormed)
    (h : v.IsInlineForm context w) (h' : v.IsInlineForm context' w') :
    w.same w' = context.same context' := by
  obtain ⟨members, rfl, rfl⟩ := isInlineForm_iff.1 h
  obtain ⟨members', hmembers, rfl⟩ := isInlineForm_iff.1 h'
  cases hmembers
  exact same_setMember hv

end Json

/-! ## Writing it -/

section

variable {γ δ : Type} [EncodesJson γ] [EncodesJson δ]

namespace Tagged

theorem inline_of_object {t : Tagged γ} {members : List (String × Json)}
    (h : t.payload = .object members) :
    t.inline = match EncodesJson.encode t.context with
      | .ok context => .ok (.object (Json.setMember contextMember context members))
      | .error reason => .error (.serialization (.ofText reason)) := by
  cases hcontext : EncodesJson.encode t.context with
  | ok context => simp only [inline, h, hcontext]
  | error reason => simp only [inline, h, hcontext]

theorem inline_of_not_object {t : Tagged γ} (h : t.payload.isObject = false) :
    t.inline = .error (.notInlinable t.payload.kind) := by
  rw [inline]
  cases hpayload : t.payload with
  | object members => rw [hpayload] at h; cases h
  | _ => rfl

/-- **There is an inline form exactly if the payload is an object and the context has a JSON
form.** -/
theorem inline_eq_ok_iff {t : Tagged γ} {w : Json} :
    t.inline = .ok w ↔
      ∃ context, EncodesJson.encode t.context = .ok context ∧
        t.payload.IsInlineForm context w := by
  cases hpayload : t.payload with
  | object members =>
    rw [inline_of_object hpayload]
    cases EncodesJson.encode t.context with
    | error reason => simp
    | ok context => simp [Json.isInlineForm_iff]
  | _ =>
    rw [inline_of_not_object (by rw [hpayload]; rfl)]
    simp [Json.isInlineForm_iff]

theorem exists_inline_iff {t : Tagged γ} :
    (∃ w, t.inline = .ok w) ↔
      t.payload.isObject = true ∧ ∃ context, EncodesJson.encode t.context = .ok context := by
  constructor
  · rintro ⟨w, hw⟩
    obtain ⟨context, hcontext, hform⟩ := inline_eq_ok_iff.1 hw
    obtain ⟨members, hpayload, -⟩ := Json.isInlineForm_iff.1 hform
    rw [hpayload]
    exact ⟨rfl, context, hcontext⟩
  · rintro ⟨hobject, context, hcontext⟩
    obtain ⟨members, hpayload⟩ := Json.isObject_iff.1 hobject
    rw [inline_of_object hpayload, hcontext]
    exact ⟨_, rfl⟩

/-- What is not an object is refused before the context is looked at. -/
theorem inline_eq_notInlinable_iff {t : Tagged γ} {kind : Json.Kind} :
    t.inline = .error (.notInlinable kind) ↔
      t.payload.isObject = false ∧ t.payload.kind = kind := by
  cases hpayload : t.payload with
  | object members =>
    rw [inline_of_object hpayload]
    cases EncodesJson.encode t.context <;> simp [Json.isObject]
  | _ =>
    rw [inline_of_not_object (by rw [hpayload]; rfl), hpayload]
    simp [Json.isObject]

theorem inline_eq_serialization_iff {t : Tagged γ} {reason : Text.Located} :
    t.inline = .error (.serialization reason) ↔
      t.payload.isObject = true ∧
        ∃ text, EncodesJson.encode t.context = .error text ∧ .ofText text = reason := by
  cases hpayload : t.payload with
  | object members =>
    rw [inline_of_object hpayload]
    cases EncodesJson.encode t.context <;> simp [Json.isObject]
  | _ =>
    rw [inline_of_not_object (by rw [hpayload]; rfl)]
    simp [Json.isObject]

/-- **The last context stays**: to write one over an inline form is to write it over the payload,
also if it has no JSON form. -/
theorem inline_again {t : Tagged γ} {w : Json} (h : t.inline = .ok w) {again : Tagged δ}
    (hagain : again.payload = w) :
    again.inline = (⟨t.held, again.context⟩ : Tagged δ).inline := by
  obtain ⟨context, -, hform⟩ := inline_eq_ok_iff.1 h
  obtain ⟨members, hpayload, rfl⟩ := Json.isInlineForm_iff.1 hform
  have hafresh : (⟨t.held, again.context⟩ : Tagged δ).payload = .object members := hpayload
  rw [inline_of_object hagain, inline_of_object hafresh]
  cases EncodesJson.encode again.context with
  | error reason => rfl
  | ok other =>
    dsimp only
    rw [Json.setMember_setMember]

end Tagged

/-- **The inline form.**  There is none, whatever the context, if the payload is not an object, and
otherwise there is none exactly if the context has no JSON form.  From the inline form the context
is read back, all other members are those of the payload in their order, the context stands where
the payload had one and else last, and taking it out gives the payload back exactly if that had
none.  A context that is written over an inline form, of whatever type and whether it has a JSON
form or not, gives what it gives when it is written over the payload.  And two contexts of one
payload have equal inline forms exactly if they have equal JSON forms, whether the order of members
counts or not. -/
theorem inline_laws (t : Tagged γ) :
    (∀ kind, t.inline = .error (.notInlinable kind) ↔
      t.payload.isObject = false ∧ t.payload.kind = kind) ∧
    (∀ reason, t.inline = .error (.serialization reason) ↔
      t.payload.isObject = true ∧
        ∃ text, EncodesJson.encode t.context = .error text ∧ .ofText text = reason) ∧
    (∀ w, t.inline = .ok w ↔
      ∃ context, EncodesJson.encode t.context = .ok context ∧ t.payload.IsInlineForm context w) ∧
    ((∃ w, t.inline = .ok w) ↔
      t.payload.isObject = true ∧ ∃ context, EncodesJson.encode t.context = .ok context) ∧
    (∀ w, t.inline = .ok w → ∀ again : Tagged δ, again.payload = w →
      again.inline = (⟨t.held, again.context⟩ : Tagged δ).inline) ∧
    ∀ (other : δ) w w', t.inline = .ok w → (⟨t.held, other⟩ : Tagged δ).inline = .ok w' →
      (w = w' ↔ EncodesJson.encode t.context = EncodesJson.encode other) ∧
      (t.payload.WellFormed → ∀ context context', EncodesJson.encode t.context = .ok context →
        EncodesJson.encode other = .ok context' → w.same w' = context.same context') := by
  refine ⟨fun _ ↦ Tagged.inline_eq_notInlinable_iff, fun _ ↦ Tagged.inline_eq_serialization_iff,
    fun _ ↦ Tagged.inline_eq_ok_iff, Tagged.exists_inline_iff,
    fun _ hw _ hagain ↦ Tagged.inline_again hw hagain, ?_⟩
  intro other w w' hw hw'
  obtain ⟨context, hcontext, hform⟩ := Tagged.inline_eq_ok_iff.1 hw
  obtain ⟨context', hcontext', hform'⟩ := Tagged.inline_eq_ok_iff.1 hw'
  have hform' : t.payload.IsInlineForm context' w' := hform'
  rw [hcontext, hcontext']
  refine ⟨by rw [Except.ok.injEq, hform.eq_iff hform'], ?_⟩
  rintro hwell _ _ ⟨⟩ ⟨⟩
  exact hform.same_eq hwell hform'

/-- A context takes the place of another one, in the middle of the object. -/
example :
    (⟨.owned (.object [("a", .null), ("__context", .null), ("b", .null)]), .string "c"⟩ :
        Tagged Json).inline
      = .ok (.object [("a", .null), ("__context", .string "c"), ("b", .null)]) := by
  rfl

end

end RequestedFields
