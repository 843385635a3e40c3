import RequestedFields.PathWalk
import RequestedFields.Query.Grammar
import RequestedFields.ResolverInfo
import RequestedFields.Trace

/-!
# Query documents

A query text is read into what its definitions ask for (`Document.read`), and a document answers
which nodes select the field at the end of a path (`Document.resolve`): one of its operations is
**selected**, the path is **followed** from that operation's selection set, and the nodes at its
end, with all fragment definitions of the document, are what the resolver of that field is told.

An operation is selected by its name, and then the first of that name is meant; or it is the only
one of the document.  Definitions of one fragment name shadow each other: the last one counts.

Problems are noticed in this order: the text is not a document, there is no such operation, the path
is empty, the path does not lead to a field.
-/

set_option autoImplicit false

namespace RequestedFields

open Query (Position Definition WrittenDefinition)

/-- Why a document does not tell what a resolver asks for. -/
inductive DocumentError where
  /-- The text is not a document; at this position stands the first thing that does not fit. -/
  | malformed (position : Position)
  /-- There is no operation. -/
  | missingOperation
  /-- There is no operation of this name. -/
  | unknownOperation (name : String)
  /-- There are several operations, and none is named. -/
  | ambiguousOperation
  /-- The path does not lead to a field. -/
  | path (error : PathError)
  deriving DecidableEq, Repr

/-- The error as it is shown to a user. -/
def DocumentError.message : DocumentError → String
  | .malformed position =>
    "Could not parse the query: query parse error: Parse error at " ++ position.text
  | .missingOperation => "The document does not contain any operation"
  | .unknownOperation name => "Unknown operation named '" ++ name ++ "'"
  | .ambiguousOperation =>
    "The document contains several operations, an operation name is required"
  | .path error => error.message

/-- The definitions of a query text, in order. -/
structure Document where
  definitions : List Definition
  deriving DecidableEq

/-- What a document tells, and what is reported on the way. -/
structure Resolution where
  events : List Event
  outcome : Except DocumentError ResolverInfo

namespace Document

/-- Read a query text. -/
def read (source : String) : Except DocumentError Document :=
  let lexing := Query.lex source
  match Query.Grammar.document.run (lexing.tokens.map Prod.snd) with
  | .error stuck => .error (.malformed (lexing.positionOf stuck.length))
  | .ok (definitions, _) =>
    if lexing.complete then .ok ⟨definitions.map WrittenDefinition.toDefinition⟩
    else .error (.malformed lexing.stop)

/-- The operations, each with its name and its selection set. -/
def operations (d : Document) : List (Option String × List Selection) :=
  d.definitions.filterMap fun
    | .operation name selections => some (name, selections)
    | .fragment _ => none

/-- The fragment definitions, in the order of the text. -/
def fragments (d : Document) : List Fragment :=
  d.definitions.filterMap fun
    | .operation _ _ => none
    | .fragment fragment => some fragment

/-- The selection set of the operation that is asked for. -/
def selectOperation (d : Document) : Option String → Except DocumentError (List Selection)
  | some name =>
    match d.operations.find? (fun operation => operation.1 = some name) with
    | some (_, selections) => .ok selections
    | none => .error (.unknownOperation name)
  | none =>
    match d.operations with
    | [] => .error .missingOperation
    | [(_, selections)] => .ok selections
    | _ => .error .ambiguousOperation

/-- Follow a path from the selection set of an operation.  The nodes at its end, with these fragment
definitions, are what the resolver of the field is told. -/
def resolvePath (definitions : List Fragment) (root : List Selection) (path : List String) :
    Resolution :=
  let info := ResolverInfo.ofLists [] definitions
  let walk := PathWalk.ofRoot info.fragments root path
  match walk.outcome with
  | .error e => ⟨eventsOf walk.steps, .error (.path e)⟩
  | .ok nodes =>
    ⟨eventsOf walk.steps ++ [.resolved path nodes.length], .ok { info with fieldNodes := nodes }⟩

/-- What the resolver of the field at the end of a path is told. -/
def resolve (d : Document) (operation : Option String) (path : List String) : Resolution :=
  match d.selectOperation operation with
  | .error e => ⟨[], .error e⟩
  | .ok root => resolvePath d.fragments root path

theorem outcome_resolvePath (definitions : List Fragment) (root : List Selection)
    (path : List String) :
    (resolvePath definitions root path).outcome
      = match (PathWalk.ofRoot (.ofList definitions) root path).outcome with
        | .error e => .error (.path e)
        | .ok nodes => .ok ⟨nodes, .ofList definitions⟩ := by
  simp only [resolvePath, ResolverInfo.ofLists]
  cases (PathWalk.ofRoot (.ofList definitions) root path).outcome <;> rfl

theorem nodes_of_resolvePath {definitions : List Fragment} {root : List Selection}
    {path : List String} {info : ResolverInfo}
    (h : (resolvePath definitions root path).outcome = .ok info) :
    (PathWalk.ofRoot (.ofList definitions) root path).outcome = .ok info.fieldNodes ∧
      info.fragments = .ofList definitions := by
  rw [outcome_resolvePath] at h
  cases hw : (PathWalk.ofRoot (.ofList definitions) root path).outcome with
  | error e => rw [hw] at h; cases h
  | ok nodes => rw [hw] at h; cases h; exact ⟨rfl, rfl⟩

end Document

/-- What the text of a query tells the resolver of the field at the end of a path. -/
def resolveText (source : String) (operation : Option String) (path : List String) : Resolution :=
  match Document.read source with
  | .error e => ⟨[], .error e⟩
  | .ok d => d.resolve operation path

theorem resolveText_of_read {source : String} {operation : Option String} {d : Document}
    {root : List Selection} (hread : Document.read source = .ok d)
    (hselect : d.selectOperation operation = .ok root) (path : List String) :
    resolveText source operation path = Document.resolvePath d.fragments root path := by
  rw [resolveText, hread]
  show d.resolve operation path = _
  rw [Document.resolve, hselect]

theorem read_of_resolveText {source : String} {operation : Option String} {path : List String}
    {info : ResolverInfo} (h : (resolveText source operation path).outcome = .ok info) :
    ∃ d root, Document.read source = .ok d ∧ d.selectOperation operation = .ok root := by
  rw [resolveText] at h
  cases hread : Document.read source with
  | error e => rw [hread] at h; cases h
  | ok d =>
    rw [hread] at h
    change (d.resolve operation path).outcome = .ok info at h
    rw [Document.resolve] at h
    cases hselect : d.selectOperation operation with
    | error e => rw [hselect] at h; cases h
    | ok root => exact ⟨d, root, rfl, hselect⟩

end RequestedFields
