import RequestedFields.Document
import RequestedFields.Proofs.Lexing
import RequestedFields.Proofs.Parsing

/-!
# From a tree to a text and back

A tree of selections with fragment definitions can be handed over as it is, or it can be written as
the text of a query and read from there.  **It makes no difference**: the text is read as exactly
the tree that was written, so every path is answered as it is answered for the tree, with the same
nodes, the same fragments and the same errors.

Only such trees are meant as have a text: names have to be names, no fragment may be called `on`,
because three dots and `on` begin a type condition, a selection set cannot be empty, except that a
field need not have one, and braces go only so deep.

The proof puts together what the lexer makes of the text (`lex_join`) and what the grammar makes of
the tokens (`reads_ofQuery`).

* `arePlain_ofQuery` — what is written consists of punctuators and names.
* `Document.read_text` — the text is read as the tree.
* `StandsFor`, `standsFor_text` — the text is answered like the tree.
-/

set_option autoImplicit false

namespace RequestedFields

open Query (Token Position WrittenDefinition WrittenOperation isName)
open Query.Printing Query.Grammar

/-! ## The tokens of a tree -/

/-- Punctuators and well-formed names. -/
def ArePlain (tokens : List Token) : Prop := ∀ t ∈ tokens, t.isPlain = true

theorem arePlain_braced {tokens : List Token} (h : ArePlain tokens) : ArePlain (braced tokens) := by
  have hclose : ArePlain [.braceClose] := List.forall_mem_singleton.2 rfl
  exact List.forall_mem_append.2 ⟨List.forall_mem_cons.2 ⟨rfl, h⟩, hclose⟩

theorem isPlain_of_isFragmentName {name : String} (h : isFragmentName name = true) :
    (Token.name name).isPlain = true :=
  (Bool.and_eq_true_iff.1 h).1

theorem arePlain_ofLabel {label : Option String} {name : String}
    (hlabel : label.all (fun key ↦ isName key.toList) = true) (hname : isName name.toList = true) :
    ArePlain (ofLabel label name) := by
  have hplain : ArePlain [.name name] := List.forall_mem_singleton.2 hname
  cases label with
  | none => exact hplain
  | some key =>
    exact List.forall_mem_cons.2 ⟨hlabel, List.forall_mem_cons.2 ⟨rfl, hplain⟩⟩

mutual

theorem arePlain_ofField : ∀ {f : Field}, f.isWritable = true → ArePlain (ofField f)
  | ⟨label, name, selections⟩, h => by
    obtain ⟨hlabel, hname, hbelow⟩ := Field.isWritable_iff.1 h
    rw [ofField_eq, ofBelow]
    refine List.forall_mem_append.2 ⟨arePlain_ofLabel hlabel hname, ?_⟩
    split
    · exact List.forall_mem_nil _
    · exact arePlain_braced (arePlain_ofSelections hbelow)

theorem arePlain_ofSelection : ∀ {s : Selection}, s.isWritable = true → ArePlain (ofSelection s)
  | .field f, h => by
    rw [ofSelection]
    exact arePlain_ofField h
  | .spread fragment, h => by
    rw [ofSelection]
    have hname : ArePlain [.name fragment] :=
      List.forall_mem_singleton.2 (isPlain_of_isFragmentName h)
    exact List.forall_mem_cons.2 ⟨rfl, hname⟩
  | .inline typeCondition selections, h => by
    obtain ⟨htype, -, hselections⟩ := Selection.isWritable_inline.1 h
    have hset := arePlain_braced (arePlain_ofSelections hselections)
    rw [ofSelection.eq_def]
    cases typeCondition with
    | none => exact List.forall_mem_cons.2 ⟨rfl, hset⟩
    | some type =>
      have hon : ArePlain (.name type :: braced (ofSelections selections)) :=
        List.forall_mem_cons.2 ⟨htype, hset⟩
      exact List.forall_mem_cons.2 ⟨rfl, List.forall_mem_cons.2 ⟨rfl, hon⟩⟩

theorem arePlain_ofSelections : ∀ {selections : List Selection}, areWritable selections = true →
    ArePlain (ofSelections selections)
  | [], _ => by
    rw [ofSelections]
    exact List.forall_mem_nil _
  | s :: rest, h => by
    obtain ⟨hs, hrest⟩ := areWritable_cons.1 h
    rw [ofSelections]
    exact List.forall_mem_append.2 ⟨arePlain_ofSelection hs, arePlain_ofSelections hrest⟩

end

theorem arePlain_set {selections : List Selection} (h : isWritableSet selections = true) :
    ArePlain (braced (ofSelections selections)) := by
  obtain ⟨-, hwritable, -⟩ := isWritableSet_iff.1 h
  exact arePlain_braced (arePlain_ofSelections hwritable)

theorem arePlain_ofFragment {f : Fragment} (h : f.isWritable = true) :
    ArePlain (ofFragment f) := by
  obtain ⟨hname, htype, hset⟩ := Fragment.isWritable_iff.1 h
  have hon : ArePlain [.name "on", .name f.typeCondition] :=
    List.forall_mem_cons.2 ⟨rfl, List.forall_mem_singleton.2 htype⟩
  have hhead : ArePlain [.name "fragment", .name f.name, .name "on", .name f.typeCondition] :=
    List.forall_mem_cons.2 ⟨rfl, List.forall_mem_cons.2 ⟨isPlain_of_isFragmentName hname, hon⟩⟩
  exact List.forall_mem_append.2 ⟨hhead, arePlain_set hset⟩

section

variable {root : List Selection} {fragments : List Fragment} (hroot : isWritableSet root = true)
  (hfragments : ∀ f ∈ fragments, f.isWritable = true)

include hroot hfragments

theorem arePlain_ofQuery : ArePlain (ofQuery root fragments) := by
  refine List.forall_mem_append.2 ⟨arePlain_set hroot, fun t ht ↦ ?_⟩
  obtain ⟨tokens, htokens, ht⟩ := List.mem_flatten.1 ht
  obtain ⟨f, hf, rfl⟩ := List.mem_map.1 htokens
  exact arePlain_ofFragment (hfragments f hf) t ht

/-! ## The text of a tree -/

/-- **The text of a tree is read as the tree**: as the operation and then the definitions. -/
theorem Document.read_text :
    Document.read (text root fragments)
      = .ok ⟨.operation none root :: fragments.map .fragment⟩ := by
  have hlex := Query.lex_join (arePlain_ofQuery hroot hfragments)
  have hparse := Query.Grammar.reads_ofQuery hroot hfragments
  rw [Document.read, text, hlex.tokens, StateT.run, hparse]
  refine (if_pos hlex.complete).trans ?_
  simp [WrittenDefinition.toDefinition, WrittenOperation.name?, WrittenOperation.set,
    toSelections_written, Fragment.toFragment_written, Function.comp_def]

/-- A text is answered like the tree, in what is found and in what is reported on the way. -/
theorem resolveText_text (path : List String) :
    resolveText (text root fragments) none path = Document.resolvePath fragments root path := by
  have hselect : (⟨.operation none root :: fragments.map .fragment⟩ : Document).selectOperation none
      = .ok root := by
    simp [Document.selectOperation, Document.operations, List.filterMap_map]
  rw [resolveText_of_read (Document.read_text hroot hfragments) hselect]
  simp [Document.fragments, List.filterMap_map]

end

/-- What is asked of a text is what can be asked of a tree: selections and definitions of fragments
that are handed over as they are. -/
structure StandsFor (source : String) (root : List Selection) (fragments : List Fragment) :
    Prop where
  /-- The text has one operation, and then the definitions as they are. -/
  read : Document.read source = .ok ⟨.operation none root :: fragments.map .fragment⟩
  /-- The text is never refused. -/
  wellFormed (path : List String) (position : Position) :
    (resolveText source none path).outcome ≠ .error (.malformed position)
  /-- The empty path is an error. -/
  emptyPath : (resolveText source none []).outcome = .error (.path .emptyPath)
  /-- Any other path leads to what it leads to in the tree, node for node, or to the same error. -/
  follow (key : String) (rest : List String) :
    (resolveText source none (key :: rest)).outcome
      = match
          (PathWalk.ofRoot (ResolverInfo.ofLists [] fragments).fragments root (key :: rest)).outcome
        with
        | .error e => .error (.path e)
        | .ok nodes => .ok { ResolverInfo.ofLists [] fragments with fieldNodes := nodes }

/-- **A tree that is written as a text can be read again**, and what is asked of the text is
answered as for the tree. -/
theorem standsFor_text {root : List Selection} {fragments : List Fragment}
    (hroot : isWritableSet root = true) (hfragments : ∀ f ∈ fragments, f.isWritable = true) :
    StandsFor (text root fragments) root fragments where
  read := Document.read_text hroot hfragments
  wellFormed path position h := by
    rw [resolveText_text hroot hfragments, Document.outcome_resolvePath] at h
    split at h <;> cases h
  emptyPath := by rw [resolveText_text hroot hfragments]; rfl
  follow key rest := by
    rw [resolveText_text hroot hfragments, Document.outcome_resolvePath]
    rfl

example :
    text [.field ⟨some "a", "b", [.spread "F"]⟩] [⟨"F", "T", [.inline none [.field (.leaf "c")]]⟩]
      = "{ a : b { ... F } } fragment F on T { ... { c } }" := by
  decide +kernel

/-- Selections of every kind, with names that are words of the grammar elsewhere. -/
def wordyRoot : List Selection :=
  [.field ⟨some "query", "on", [.spread "fragment", .inline none [.inline (some "on")
    [.field ⟨some "fragment", "mutation", []⟩]]]⟩, .inline (some "query") [.field (.leaf "on")]]

/-- A fragment called by the word that its definition begins with, and one that is never spread. -/
def wordyFragments : List Fragment :=
  [⟨"fragment", "on", [.field ⟨none, "on", [.spread "fragment"]⟩]⟩, ⟨"_0", "__", [.spread "_0"]⟩]

/-- Words of the grammar are names where names are asked for. -/
theorem standsFor_text_wordy :
    isWritableSet wordyRoot = true ∧ (∀ f ∈ wordyFragments, f.isWritable = true) ∧
      StandsFor (text wordyRoot wordyFragments) wordyRoot wordyFragments := by
  have hroot : isWritableSet wordyRoot = true := by decide
  have hfragments : ∀ f ∈ wordyFragments, f.isWritable = true := by decide
  exact ⟨hroot, hfragments, standsFor_text hroot hfragments⟩

end RequestedFields
