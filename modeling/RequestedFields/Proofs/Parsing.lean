import RequestedFields.Query.Grammar
import RequestedFields.Query.Printing

/-!
# What the grammar makes of written selections

Selections, written as tokens, are read by the grammar as just these selections, written
(`Selection.written`), and what those ask for are the selections again (`toSelections_written`).  A
rule of the grammar goes by the next token, so what stands behind a selection matters: after a name,
a colon would make it an alias, and a parenthesis, an `@` or a brace would still belong to the
field.  What does stand there is a name or three dots, where the next selection begins, or the brace
that closes the set.

The grammar goes down on the number of brackets that may still be opened, and so does the proof:
sets are read with some room (`readsSets`) because fields and inline fragments are read with one
bracket less.

* `Reader.Reads` — a reader takes a value from the front of some symbols and leaves the rest; it
  goes through sequences (`Reads.bind`) and repetitions (`Reads.repeatWhile_cons`).
* `written`, `toSelections_written` — selections in the form that the grammar gives them, which asks
  for nothing else.
* `areWritable` — names are well formed, no fragment is called `on`, and no braces are empty;
  `nesting` — how many braces are open at once.
* `readsSets`, `reads_ofQuery` — **the grammar undoes the writing of selections and of a whole
  query.**
-/

set_option autoImplicit false

namespace RequestedFields

/-! ## Readers -/

namespace Reader

variable {σ α β : Type}

/-- The reader takes `a` from the front of the symbols and leaves the rest. -/
def Reads (r : Reader σ α) (symbols : List σ) (a : α) (rest : List σ) : Prop :=
  r symbols = .ok (a, rest)

theorem Reads.pure (a : α) (symbols : List σ) : Reads (pure a) symbols a symbols := rfl

theorem Reads.bind {r : Reader σ α} {f : α → Reader σ β} {symbols mid rest : List σ} {a : α}
    {b : β} (h : Reads r symbols a mid) (hf : Reads (f a) mid b rest) :
    Reads (r >>= f) symbols b rest := by
  change Except.bind (r symbols) (fun taken ↦ f taken.1 taken.2) = _
  rw [show r symbols = .ok (a, mid) from h]
  exact hf

theorem Reads.map {r : Reader σ α} {symbols rest : List σ} {a : α} (h : Reads r symbols a rest)
    (f : α → β) : Reads (f <$> r) symbols (f a) rest := by
  change Except.map _ (r symbols) = _
  rw [show r symbols = .ok (a, rest) from h]
  rfl

theorem reads_skip (s : σ) (rest : List σ) : Reads skip (s :: rest) () rest := rfl

theorem reads_peek (symbols : List σ) : Reads peek symbols symbols.head? symbols := rfl

theorem reads_expect [DecidableEq σ] (s : σ) (rest : List σ) :
    Reads (expect s) (s :: rest) () rest := if_pos rfl

/-- No item, before a symbol that no item begins with or at the end. -/
theorem Reads.repeatWhile_nil {more : σ → Bool} (item : Reader σ α) {symbols : List σ}
    (h : ∀ s ∈ symbols.head?, more s = false) :
    Reads (repeatWhile more item) symbols [] symbols := by
  rw [Reads]
  cases symbols with
  | nil => rw [repeatWhile]
  | cons s rest =>
    rw [repeatWhile, if_neg (by rw [h s rfl]; exact Bool.false_ne_true)]

/-- One item, of one symbol or more, and then others. -/
theorem Reads.repeatWhile_cons {more : σ → Bool} {item : Reader σ α} {s : σ}
    {taken mid rest : List σ} {a : α} {items : List α} (hs : more s = true)
    (ha : Reads item (s :: taken ++ mid) a mid)
    (hitems : Reads (repeatWhile more item) mid items rest) :
    Reads (repeatWhile more item) (s :: taken ++ mid) (a :: items) rest := by
  have hshorter : mid.length < (s :: taken ++ mid).length := by
    rw [List.length_append, List.length_cons]
    omega
  rw [Reads, List.cons_append] at *
  rw [repeatWhile, if_pos hs, ha]
  dsimp only
  rw [if_pos hshorter, hitems]

end Reader

/-! ## What is written -/

open Query (isName toSelections WrittenField WrittenSelection WrittenFragment)

mutual

/-- A field as it is written plainly. -/
def Field.written : Field → WrittenField
  | ⟨label, name, selections⟩ => ⟨label, name, written selections⟩

/-- A selection as it is written plainly. -/
def Selection.written : Selection → WrittenSelection
  | .field f => .field f.written
  | .spread fragment => .spread fragment
  | .inline typeCondition selections => .inline typeCondition (written selections)

/-- Selections as they are written plainly. -/
def written : List Selection → List WrittenSelection
  | [] => []
  | s :: rest => s.written :: written rest

end

/-- A fragment definition as it is written plainly. -/
def Fragment.written (f : Fragment) : WrittenFragment :=
  ⟨f.name, f.typeCondition, RequestedFields.written f.selections⟩

mutual

theorem Field.toField_written : ∀ f : Field, f.written.toField = f
  | ⟨_, _, selections⟩ => by
    rw [Field.written, WrittenField.toField, toSelections_written selections]

theorem Selection.toSelection_written : ∀ s : Selection, s.written.toSelection = s
  | .field f => by
    rw [Selection.written, WrittenSelection.toSelection, f.toField_written]
  | .spread _ => by
    rw [Selection.written, WrittenSelection.toSelection]
  | .inline _ selections => by
    rw [Selection.written, WrittenSelection.toSelection, toSelections_written selections]

/-- **Selections are asked for by their own writing.** -/
theorem toSelections_written : ∀ selections : List Selection,
    toSelections (written selections) = selections
  | [] => by
    rw [written, toSelections]
  | s :: rest => by
    rw [written, toSelections, s.toSelection_written, toSelections_written rest]

end

theorem Fragment.toFragment_written (f : Fragment) : f.written.toFragment = f := by
  rw [Fragment.written, WrittenFragment.toFragment, toSelections_written]

/-! ## What can be written -/

/-- A name that a fragment can have, which is any but `on`. -/
def isFragmentName (name : String) : Bool := isName name.toList && name != "on"

mutual

/-- Whether a field can be written and read again. -/
def Field.isWritable : Field → Bool
  | ⟨label, name, selections⟩ =>
    label.all (fun key ↦ isName key.toList) && isName name.toList && areWritable selections

/-- Whether a selection can be written and read again. -/
def Selection.isWritable : Selection → Bool
  | .field f => f.isWritable
  | .spread fragment => isFragmentName fragment
  | .inline typeCondition selections =>
    typeCondition.all (fun type ↦ isName type.toList) && !selections.isEmpty &&
      areWritable selections

/-- Whether selections can be written and read again. -/
def areWritable : List Selection → Bool
  | [] => true
  | s :: rest => s.isWritable && areWritable rest

end

mutual

/-- How many braces of a field are open at once. -/
def Field.nesting : Field → Nat
  | ⟨_, _, selections⟩ => if selections.isEmpty then 0 else 1 + nesting selections

/-- How many braces of a selection are open at once. -/
def Selection.nesting : Selection → Nat
  | .field f => f.nesting
  | .spread _ => 0
  | .inline _ selections => 1 + nesting selections

/-- How many braces of selections are open at once, without those around them. -/
def nesting : List Selection → Nat
  | [] => 0
  | s :: rest => max s.nesting (nesting rest)

end

/-- Whether selections can be written in braces, one inside of the other up to the limit. -/
def isWritableSet (selections : List Selection) : Bool :=
  !selections.isEmpty && areWritable selections && 1 + nesting selections ≤ Query.Grammar.maxNesting

/-- Whether a fragment definition can be written and read again. -/
def Fragment.isWritable (f : Fragment) : Bool :=
  isFragmentName f.name && isName f.typeCondition.toList && isWritableSet f.selections

section

variable {selections : List Selection}

theorem Field.isWritable_iff {label : Option String} {name : String} :
    (Field.mk label name selections).isWritable = true
      ↔ label.all (fun key ↦ isName key.toList) = true ∧ isName name.toList = true ∧
        areWritable selections = true := by
  rw [Field.isWritable, Bool.and_eq_true, Bool.and_eq_true, and_assoc]

theorem Selection.isWritable_inline {typeCondition : Option String} :
    (Selection.inline typeCondition selections).isWritable = true
      ↔ typeCondition.all (fun type ↦ isName type.toList) = true ∧ selections ≠ [] ∧
        areWritable selections = true := by
  rw [Selection.isWritable, Bool.and_eq_true, Bool.and_eq_true, Bool.not_eq_true',
    List.isEmpty_eq_false_iff, and_assoc]

theorem areWritable_cons {s : Selection} :
    areWritable (s :: selections) = true
      ↔ s.isWritable = true ∧ areWritable selections = true := by
  rw [areWritable, Bool.and_eq_true]

theorem isWritableSet_iff :
    isWritableSet selections = true
      ↔ selections ≠ [] ∧ areWritable selections = true ∧
        1 + nesting selections ≤ Query.Grammar.maxNesting := by
  rw [isWritableSet, Bool.and_eq_true, Bool.and_eq_true, Bool.not_eq_true',
    List.isEmpty_eq_false_iff, decide_eq_true_iff, and_assoc]

theorem Fragment.isWritable_iff {f : Fragment} :
    f.isWritable = true
      ↔ isFragmentName f.name = true ∧ isName f.typeCondition.toList = true ∧
        isWritableSet f.selections = true := by
  rw [Fragment.isWritable, Bool.and_eq_true, Bool.and_eq_true, and_assoc]

end

namespace Query.Grammar

open Reader Printing

/-! ## Rules that find nothing -/

/-- The tokens that belong to a selection when they stand after a name. -/
def continuing : List Token := [.colon, .parenOpen, .atSign, .braceOpen]

/-- What stands here does not belong to the selection before it. -/
def Ended (rest : List Token) : Prop := ∀ t ∈ continuing, rest.head? ≠ some t

theorem reads_name (text : String) (rest : List Token) :
    Reads name (.name text :: rest) text rest := rfl

theorem reads_name? (text : String) (rest : List Token) :
    Reads name? (.name text :: rest) (some text) rest := rfl

theorem reads_name?_none (rest : List Token) :
    Reads name? (.braceOpen :: rest) none (.braceOpen :: rest) := rfl

theorem reads_nextIs {t : Token} {tokens : List Token} (h : tokens.head? = some t) :
    Reads (nextIs t) tokens true tokens := by
  change Except.ok (decide (tokens.head? = some t), tokens) = _
  rw [decide_eq_true h]

theorem reads_nextIs_not {t : Token} {tokens : List Token} (h : tokens.head? ≠ some t) :
    Reads (nextIs t) tokens false tokens := by
  change Except.ok (decide (tokens.head? = some t), tokens) = _
  rw [decide_eq_false h]

theorem reads_parenthesized? (room : Nat) (item : Nat → Reader Token Unit) {tokens : List Token}
    (h : tokens.head? ≠ some .parenOpen) : Reads (parenthesized? room item) tokens () tokens :=
  .bind (reads_nextIs_not h) (.pure () tokens)

theorem reads_directives (room : Nat) {tokens : List Token} (h : tokens.head? ≠ some .atSign) :
    Reads (directives room) tokens () tokens := by
  have hnone : ∀ t ∈ tokens.head?, decide (t = Token.atSign) = false := by
    intro t ht
    rw [decide_eq_false]
    rintro rfl
    exact h ht
  exact (Reads.repeatWhile_nil _ hnone).map _

/-! ## Selections -/

/-- The name of a field as it is written, with its alias. -/
def ofLabel (label : Option String) (name : String) : List Token :=
  match label with
  | none => [.name name]
  | some key => [.name key, .colon, .name name]

/-- What is written below a field: no braces around nothing. -/
def ofBelow (selections : List Selection) : List Token :=
  if selections.isEmpty then [] else braced (ofSelections selections)

theorem ofField_eq (label : Option String) (name : String) (selections : List Selection) :
    ofField ⟨label, name, selections⟩ = ofLabel label name ++ ofBelow selections := by
  rw [ofField.eq_def]
  cases selections with
  | nil => rfl
  | cons first more =>
    change _ = _ ++ braced (ofSelections (first :: more))
    rw [ofSelections]
    rfl

/-- Behind the name of a field stands a brace, or what does not belong to it. -/
theorem ofBelow_head? {selections : List Selection} {rest : List Token} (hrest : Ended rest)
    {t : Token} (ht : t ∈ continuing) (hne : t ≠ .braceOpen) :
    (ofBelow selections ++ rest).head? ≠ some t := by
  cases selections with
  | nil => exact hrest t ht
  | cons first more => exact fun h ↦ hne (Option.some.inj h).symm

theorem ofField_head? (f : Field) (rest : List Token) :
    (ofField f ++ rest).head? ≠ some .ellipsis := by
  obtain ⟨_ | key, name, selections⟩ := f
  all_goals
    rw [ofField_eq]
    simp [ofLabel]

/-- A selection is written with a name or three dots first. -/
theorem ofSelection_eq_cons (s : Selection) :
    ∃ t body, ofSelection s = t :: body ∧ t ≠ .braceClose ∧ t ∉ continuing := by
  have hname (text : String) : Token.name text ≠ .braceClose ∧ Token.name text ∉ continuing := by
    simp [continuing]
  cases s with
  | field f =>
    obtain ⟨label, name, selections⟩ := f
    rw [ofSelection, ofField_eq]
    cases label with
    | none => exact ⟨_, _, rfl, hname name⟩
    | some key => exact ⟨_, _, rfl, hname key⟩
  | spread fragment =>
    rw [ofSelection]
    exact ⟨_, _, rfl, by decide⟩
  | inline typeCondition selections =>
    rw [ofSelection.eq_def]
    exact ⟨_, _, rfl, by decide⟩

theorem ended_ofSelections (selections : List Selection) (rest : List Token) :
    Ended (ofSelections selections ++ .braceClose :: rest) := by
  cases selections with
  | nil => simp [Ended, continuing, ofSelections]
  | cons s more =>
    obtain ⟨t, body, hs, -, ht⟩ := ofSelection_eq_cons s
    rw [ofSelections, hs]
    rintro u hu h
    rw [Option.some.inj h] at ht
    exact ht hu

/-- Every writable set within the room is read. -/
def ReadsSets (room : Nat) : Prop :=
  ∀ (selections : List Selection) (rest : List Token), selections ≠ [] →
    areWritable selections = true → 1 + nesting selections ≤ room →
    Reads (selectionSet room) (braced (ofSelections selections) ++ rest) (written selections) rest

section

variable {room : Nat} (hsets : ReadsSets room)

include hsets

/-- Behind its name, a field is read with what is selected below it. -/
theorem reads_behindName {selections : List Selection} (hwritable : areWritable selections = true)
    (hnesting : (if selections.isEmpty then 0 else 1 + nesting selections) ≤ room)
    {rest : List Token} (hrest : Ended rest) (build : List WrittenSelection → WrittenSelection) :
    Reads (do
        parenthesized? room argument
        directives room
        let below ← if ← nextIs .braceOpen then selectionSet room else pure []
        return build below)
      (ofBelow selections ++ rest) (build (written selections)) rest := by
  refine .bind (reads_parenthesized? room argument (ofBelow_head? hrest (by decide) (by decide)))
    (.bind (reads_directives room (ofBelow_head? hrest (by decide) (by decide))) ?_)
  cases selections with
  | nil =>
    have hnone : rest.head? ≠ some .braceOpen := hrest _ (by decide)
    rw [written]
    exact .bind (reads_nextIs_not hnone) (.bind (.pure [] rest) (.pure _ rest))
  | cons first more =>
    have hset := hsets (first :: more) rest (List.cons_ne_nil _ _) hwritable hnesting
    exact .bind (reads_nextIs rfl) (.bind hset (.pure _ rest))

theorem reads_field {f : Field} (hwritable : f.isWritable = true)
    (hnesting : f.nesting ≤ room) {rest : List Token} (hrest : Ended rest) :
    Reads (field room (selectionSet room)) (ofField f ++ rest) (.field f.written) rest := by
  obtain ⟨label, name, selections⟩ := f
  obtain ⟨-, -, hbelow⟩ := Field.isWritable_iff.1 hwritable
  rw [Field.nesting] at hnesting
  rw [ofField_eq, List.append_assoc, Field.written]
  have hbehind := reads_behindName hsets hbelow hnesting hrest
  cases label with
  | none =>
    have hcolon : Reads (nextIs .colon) (ofBelow selections ++ rest) false _ :=
      reads_nextIs_not (ofBelow_head? hrest (by decide) (by decide))
    exact .bind (reads_name name _) (.bind hcolon (.bind (.pure none _)
      (hbehind fun below ↦ .field ⟨none, name, below⟩)))
  | some key =>
    have hname := (reads_name name (ofBelow selections ++ rest)).map some
    exact .bind (reads_name key _) (.bind (reads_nextIs rfl) (.bind (reads_skip _ _)
      (.bind hname (hbehind fun below ↦ .field ⟨some key, name, below⟩))))

/-- A spread has no set; an inline fragment has one, with or without a type condition before it. -/
theorem reads_selection {s : Selection} (hwritable : s.isWritable = true)
    (hnesting : s.nesting ≤ room) {rest : List Token} (hrest : Ended rest) :
    Reads (selection room (selectionSet room)) (ofSelection s ++ rest) s.written rest := by
  have hat (tokens : List Token) : Reads (directives room) (.braceOpen :: tokens) () _ :=
    reads_directives room (by simp)
  cases s with
  | field f =>
    rw [Selection.isWritable] at hwritable
    rw [Selection.nesting] at hnesting
    rw [ofSelection, Selection.written]
    exact .bind (reads_nextIs_not (ofField_head? f rest))
      (reads_field hsets hwritable hnesting hrest)
  | spread fragment =>
    rw [Selection.isWritable, isFragmentName, Bool.and_eq_true, bne_iff_ne] at hwritable
    obtain ⟨-, hne⟩ := hwritable
    have hafter : Reads (directives room) rest () rest :=
      reads_directives room (hrest _ (by decide))
    rw [ofSelection, Selection.written]
    refine .bind (reads_nextIs rfl) (.bind (reads_expect _ _)
      (.bind (reads_name? fragment rest) ?_))
    -- the rule asks whether the name is `on` before it takes it for a fragment
    split
    · rename_i hon
      exact absurd (Option.some.inj hon) hne
    · rename_i hsome
      cases hsome
      exact .bind hafter (.pure _ rest)
    · rename_i hnone
      cases hnone
  | inline typeCondition selections =>
    obtain ⟨-, hne, hwritable⟩ := Selection.isWritable_inline.1 hwritable
    rw [Selection.nesting] at hnesting
    have hset := hsets selections rest hne hwritable hnesting
    rw [ofSelection.eq_def, Selection.written]
    cases typeCondition with
    | none =>
      exact .bind (reads_nextIs rfl) (.bind (reads_expect _ _) (.bind (reads_name?_none _)
        (.bind (hat _) (.bind hset (.pure _ rest)))))
    | some type =>
      exact .bind (reads_nextIs rfl) (.bind (reads_expect _ _) (.bind (reads_name? "on" _)
        (.bind (reads_name type _) (.bind (hat _) (.bind hset (.pure _ rest))))))

/-- The selections after the first, up to the brace. -/
theorem reads_selections {selections : List Selection} (hwritable : areWritable selections = true)
    (hnesting : nesting selections ≤ room) (rest : List Token) :
    Reads (repeatWhile (· ≠ .braceClose) (selection room (selectionSet room)))
      (ofSelections selections ++ .braceClose :: rest) (written selections)
      (.braceClose :: rest) := by
  induction selections with
  | nil =>
    rw [written]
    exact .repeatWhile_nil _ (by simp [ofSelections])
  | cons s more ih =>
    obtain ⟨hwritable, hmore⟩ := areWritable_cons.1 hwritable
    rw [nesting] at hnesting
    have hs := reads_selection hsets hwritable (by omega) (ended_ofSelections more rest)
    obtain ⟨t, body, ht, hclose, -⟩ := ofSelection_eq_cons s
    rw [ofSelections, List.append_assoc, written]
    rw [ht] at hs ⊢
    exact .repeatWhile_cons (decide_eq_true hclose) hs (ih hmore (by omega))

end

/-- **The grammar undoes the writing of selection sets**, as far as there is room for their
braces. -/
theorem readsSets (room : Nat) : ReadsSets room := by
  induction room with
  | zero => exact fun selections rest _ _ hnesting ↦ by omega
  | succ room ih =>
    intro selections rest hne hwritable hnesting
    cases selections with
    | nil => exact absurd rfl hne
    | cons first more =>
      obtain ⟨hwritable, hwritableMore⟩ := areWritable_cons.1 hwritable
      rw [nesting] at hnesting
      -- the brace of this set takes one bracket of the room, so what is inside of it has the rest
      have hfirst := reads_selection ih hwritable (by omega) (ended_ofSelections more rest)
      have hmore := reads_selections ih hwritableMore (by omega) rest
      have htokens : braced (ofSelections (first :: more)) ++ rest
          = .braceOpen :: (ofSelection first ++ (ofSelections more ++ .braceClose :: rest)) := by
        rw [ofSelections, braced]
        simp
      rw [htokens, written]
      exact .bind (reads_expect _ _) (.bind hfirst (.bind hmore (.bind (reads_expect _ _)
        (.pure _ rest))))

/-! ## Queries -/

theorem reads_set {selections : List Selection} (h : isWritableSet selections = true)
    (rest : List Token) :
    Reads (selectionSet maxNesting) (braced (ofSelections selections) ++ rest) (written selections)
      rest := by
  obtain ⟨hne, hwritable, hnesting⟩ := isWritableSet_iff.1 h
  exact readsSets maxNesting selections rest hne hwritable hnesting

theorem reads_operation {root : List Selection} (h : isWritableSet root = true)
    (rest : List Token) :
    Reads (definition maxNesting) (braced (ofSelections root) ++ rest)
      (.operation (.bare (written root))) rest :=
  .bind (reads_peek _) (.bind (reads_set h rest) (.pure _ rest))

theorem reads_fragment {f : Fragment} (h : f.isWritable = true) (rest : List Token) :
    Reads (definition maxNesting) (ofFragment f ++ rest) (.fragment f.written) rest := by
  obtain ⟨-, -, hselections⟩ := Fragment.isWritable_iff.1 h
  have hset := reads_set hselections rest
  have hat : Reads (directives maxNesting) (braced (ofSelections f.selections) ++ rest) () _ :=
    reads_directives maxNesting (by simp [braced])
  rw [ofFragment, List.append_assoc]
  exact .bind (reads_peek _) (.bind (reads_expect _ _) (.bind (reads_name f.name _)
    (.bind (reads_expect _ _) (.bind (reads_name f.typeCondition _) (.bind hat
      (.bind hset (.pure _ rest)))))))

theorem reads_fragments {fragments : List Fragment}
    (h : ∀ f ∈ fragments, f.isWritable = true) :
    Reads (repeatWhile (fun _ ↦ true) (definition maxNesting))
      (fragments.map ofFragment).flatten (fragments.map fun f ↦ .fragment f.written) [] := by
  induction fragments with
  | nil => exact .repeatWhile_nil _ (by simp)
  | cons f more ih =>
    obtain ⟨hf, hmore⟩ := List.forall_mem_cons.mp h
    exact .repeatWhile_cons rfl (reads_fragment hf _) (ih hmore)

/-- **The grammar undoes the writing of a query.** -/
theorem reads_ofQuery {root : List Selection} {fragments : List Fragment}
    (hroot : isWritableSet root = true)
    (hfragments : ∀ f ∈ fragments, f.isWritable = true) :
    Reads document (ofQuery root fragments)
      (.operation (.bare (written root)) :: fragments.map fun f ↦ .fragment f.written) [] :=
  .bind (reads_operation hroot _) (.bind (reads_fragments hfragments) (.pure _ []))

end Query.Grammar

end RequestedFields
