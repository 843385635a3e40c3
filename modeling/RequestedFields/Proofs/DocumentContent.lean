import RequestedFields.Document
import RequestedFields.Proofs.SpreadNames
import RequestedFields.Proofs.Tables

/-!
# What counts in a document

A document is asked for the nodes at the end of a path.  Of all that it contains **only two things
count: the selection set of the operation that is selected, and the last definition of every
fragment name.**  The order of the definitions, the operations that are not selected and the
definitions that a later one shadows have no part in the answer, nor in what is reported on the way.

The reason is that a walk sees the fragments through look-ups alone (`traverse_congr`), which an
order of the table cannot show in.

* `Document.firstNamed?`, `Document.lastDefinition?` — what counts.
* `SelectsAlike` — two documents have the same operation to offer.
* `AnswersAlike` — the same error, or the same nodes and the same map of fragments.
* `PathWalk.ofRoot_congr` — following a path depends on look-ups alone.
-/

set_option autoImplicit false

namespace RequestedFields

/-! ## What counts -/

namespace Document

/-- The selection set of the first operation of a name. -/
def firstNamed? (d : Document) (name : String) : Option (List Selection) :=
  (d.operations.find? fun operation ↦ operation.1 = some name).map Prod.snd

/-- The last definition of a fragment name. -/
def lastDefinition? (d : Document) (name : String) : Option Fragment :=
  (d.fragments.filter fun fragment ↦ fragment.name = name).getLast?

theorem find?_ofList_fragments (d : Document) (name : String) :
    (KeyedList.ofList d.fragments : FragmentTable).find? name = d.lastDefinition? name :=
  KeyedList.find?_ofList d.fragments name

end Document

/-- To someone who asks for an operation, by its name or for the only one, two documents have the
same to offer. -/
inductive SelectsAlike (d d' : Document) : Option String → Prop
  /-- The first operation of the name has the same selection set. -/
  | named {name : String} {root : List Selection} (h : d.firstNamed? name = some root)
      (h' : d'.firstNamed? name = some root) : SelectsAlike d d' (some name)
  /-- There is no operation of the name. -/
  | unknown {name : String} (h : d.firstNamed? name = none) (h' : d'.firstNamed? name = none) :
      SelectsAlike d d' (some name)
  /-- There is no operation. -/
  | missing (h : d.operations = []) (h' : d'.operations = []) : SelectsAlike d d' none
  /-- There is one operation, with the same selection set. -/
  | only {name name' : Option String} {root : List Selection} (h : d.operations = [(name, root)])
      (h' : d'.operations = [(name', root)]) : SelectsAlike d d' none
  /-- There are several operations. -/
  | several (h : 2 ≤ d.operations.length) (h' : 2 ≤ d'.operations.length) : SelectsAlike d d' none

/-- The same error, or the same nodes in the same order and fragments that are the same as a map. -/
inductive AnswersAlike :
    Except DocumentError ResolverInfo → Except DocumentError ResolverInfo → Prop
  | error (e : DocumentError) : AnswersAlike (.error e) (.error e)
  | ok {info info' : ResolverInfo} (hnodes : info.fieldNodes = info'.fieldNodes)
      (hfragments : ∀ name, info.fragment? name = info'.fragment? name)
      (hsame : info.same info' = true) : AnswersAlike (.ok info) (.ok info')

/-! ## Selecting an operation -/

namespace Document

theorem selectOperation_some (d : Document) (name : String) :
    d.selectOperation (some name)
      = match d.firstNamed? name with
        | some root => .ok root
        | none => .error (.unknownOperation name) := by
  rw [selectOperation, firstNamed?]
  cases d.operations.find? fun operation ↦ operation.1 = some name <;> rfl

theorem selectOperation_none_of_several {d : Document} (h : 2 ≤ d.operations.length) :
    d.selectOperation none = .error .ambiguousOperation := by
  rw [selectOperation]
  split
  · rename_i hnil
    rw [hnil] at h
    cases h
  · rename_i hone
    rw [hone, List.length_singleton] at h
    omega
  · rfl

end Document

theorem SelectsAlike.selectOperation_eq {d d' : Document} {operation : Option String}
    (h : SelectsAlike d d' operation) :
    d.selectOperation operation = d'.selectOperation operation := by
  cases h with
  | named h h' => rw [Document.selectOperation_some, Document.selectOperation_some, h, h']
  | unknown h h' => rw [Document.selectOperation_some, Document.selectOperation_some, h, h']
  | missing h h' => rw [Document.selectOperation, Document.selectOperation, h, h']
  | only h h' => rw [Document.selectOperation, Document.selectOperation, h, h']
  | several h h' =>
    rw [Document.selectOperation_none_of_several h, Document.selectOperation_none_of_several h']

/-! ## Following a path -/

section

variable {fragments fragments' : FragmentTable}

theorem traverseAll_congr (h : ∀ name, fragments.find? name = fragments'.find? name)
    (mode : InlineMode) (sets : List (List Selection)) :
    traverseAll fragments mode sets = traverseAll fragments' mode sets := by
  rw [traverseAll_eq_flatten, traverseAll_eq_flatten]
  exact traverse_congr fun name _ ↦ h name

theorem PathWalk.follow_congr (h : ∀ name, fragments.find? name = fragments'.find? name)
    (walked : List String) (sets : List (List Selection)) (key : String) (rest : List String) :
    follow fragments walked sets key rest = follow fragments' walked sets key rest := by
  have hlevel : ∀ walked sets key,
      level fragments walked sets key = level fragments' walked sets key := by
    intro walked sets key
    rw [level, level, traverseAll_congr h]
  induction rest generalizing walked sets key with
  | nil => rw [follow, follow, hlevel]
  | cons next rest ih =>
    rw [follow, follow, hlevel]
    dsimp only
    cases (level fragments' walked sets key).outcome with
    | error e => rfl
    | ok found => dsimp only; rw [ih]

/-- **Following a path depends on look-ups alone**, in what is found and in what is done. -/
theorem PathWalk.ofRoot_congr (h : ∀ name, fragments.find? name = fragments'.find? name)
    (root : List Selection) (path : List String) :
    ofRoot fragments root path = ofRoot fragments' root path := by
  cases path with
  | nil => rfl
  | cons key rest => exact follow_congr h [] [root] key rest

end

theorem answersAlike_resolvePath {definitions definitions' : List Fragment}
    (h : ∀ name, (KeyedList.ofList definitions : FragmentTable).find? name
      = (KeyedList.ofList definitions' : FragmentTable).find? name)
    (root : List Selection) (path : List String) :
    AnswersAlike (Document.resolvePath definitions root path).outcome
        (Document.resolvePath definitions' root path).outcome ∧
      (Document.resolvePath definitions root path).events
        = (Document.resolvePath definitions' root path).events := by
  have hwalk := PathWalk.ofRoot_congr h root path
  rw [Document.resolvePath, Document.resolvePath]
  dsimp only [ResolverInfo.ofLists]
  rw [hwalk]
  cases (PathWalk.ofRoot (.ofList definitions') root path).outcome with
  | error e => exact ⟨.error _, rfl⟩
  | ok nodes =>
    refine ⟨.ok rfl h ?_, rfl⟩
    exact ResolverInfo.same_iff.2 ⟨rfl, h⟩

/-- **Only the selected operation and the last definitions count.**  Two texts that agree in them
are answered alike, and the same is reported on the way. -/
theorem resolveText_answersAlike {source source' : String} {d d' : Document}
    {operation : Option String} (hread : Document.read source = .ok d)
    (hread' : Document.read source' = .ok d') (hselect : SelectsAlike d d' operation)
    (hlast : ∀ name, d.lastDefinition? name = d'.lastDefinition? name) (path : List String) :
    AnswersAlike (resolveText source operation path).outcome
        (resolveText source' operation path).outcome ∧
      (resolveText source operation path).events = (resolveText source' operation path).events := by
  have hfind : ∀ name, (KeyedList.ofList d.fragments : FragmentTable).find? name
      = (KeyedList.ofList d'.fragments : FragmentTable).find? name := fun name ↦ by
    rw [Document.find?_ofList_fragments, Document.find?_ofList_fragments, hlast]
  rw [resolveText, resolveText, hread, hread']
  dsimp only
  rw [Document.resolve, Document.resolve, hselect.selectOperation_eq]
  cases d'.selectOperation operation with
  | error e => exact ⟨.error e, rfl⟩
  | ok root => exact answersAlike_resolvePath hfind root path

/-- Two operations, and a fragment that is defined twice. -/
def shadowingDocument : Document :=
  ⟨[.fragment ⟨"F", "T", [.spread "G"]⟩, .operation (some "P") [.spread "F"],
    .fragment ⟨"G", "T", [.field (.leaf "b")]⟩, .operation (some "Q") [.field (.leaf "c")],
    .fragment ⟨"F", "T", [.field ⟨none, "a", [.spread "G"]⟩]⟩]⟩

/-- What counts of it for the operation `P`, in another order. -/
def shadowedDocument : Document :=
  ⟨[.fragment ⟨"G", "T", [.field (.leaf "b")]⟩,
    .fragment ⟨"F", "T", [.field ⟨none, "a", [.spread "G"]⟩]⟩, .operation (some "P") [.spread "F"]]⟩

theorem lastDefinition?_shadowing (name : String) :
    shadowingDocument.lastDefinition? name = shadowedDocument.lastDefinition? name := by
  rw [Document.lastDefinition?, Document.lastDefinition?]
  by_cases hF : name = "F"
  · rw [hF]; rfl
  · by_cases hG : name = "G"
    · rw [hG]; rfl
    · have hF' : ¬ "F" = name := fun h ↦ hF h.symm
      have hG' : ¬ "G" = name := fun h ↦ hG h.symm
      simp [Document.fragments, shadowingDocument, shadowedDocument, hF', hG']

def shadowingText : String :=
  "fragment F on T{...G} query P{...F} fragment G on T{b} query Q{c} fragment F on T{a{...G}}"

def shadowedText : String := "fragment G on T{b} fragment F on T{a{...G}} query P{...F}"

theorem read_shadowingText : Document.read shadowingText = .ok shadowingDocument := by
  decide +kernel

theorem read_shadowedText : Document.read shadowedText = .ok shadowedDocument := by
  decide +kernel

/-- The operation `P` of both texts is answered alike. -/
theorem resolveText_answersAlike_shadowing :
    SelectsAlike shadowingDocument shadowedDocument (some "P") ∧
      AnswersAlike (resolveText shadowingText (some "P") ["a", "b"]).outcome
        (resolveText shadowedText (some "P") ["a", "b"]).outcome := by
  have hselect : SelectsAlike shadowingDocument shadowedDocument (some "P") := .named rfl rfl
  exact ⟨hselect, (resolveText_answersAlike read_shadowingText read_shadowedText hselect
    lastDefinition?_shadowing ["a", "b"]).1⟩

end RequestedFields
