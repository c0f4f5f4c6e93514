import InpxWebReader.Foundation.Text

/-!
# Search queries

What a reader asks the catalog for: a text with the fields it is looked for in, the language and
genre filters, the order, and either an offset or a cursor that continues an earlier page.
-/

namespace InpxWebReader.Domain

open Foundation

inductive DomainErrorCode
  | validation
  | parserFailure
  | converterUnavailable
  | converterFailed
  | converterTimeout
  | cancellation
  | catalogSnapshotChanged
  | catalogCursorExpired
  | catalogCursorCapacityExceeded
  | catalogCursorInvalid
  | integrityIssue
  | notFound
  deriving DecidableEq, Repr

inductive SortDirection
  | ascending
  | descending
  deriving DecidableEq, Repr

inductive BookSort
  | title
  | author
  | dateAdded
  deriving DecidableEq, Repr

structure SearchFieldScope where
  title : Bool := true
  authors : Bool := true
  description : Bool := true
  deriving DecidableEq, Repr

def SearchFieldScope.hasAnyField (scope : SearchFieldScope) : Bool :=
  scope.title || scope.authors || scope.description

structure SearchCursor where
  sessionId : Bytes
  sourceFingerprint : Bytes
  catalogSnapshotId : Bytes
  position : Nat := 0
  deriving DecidableEq, Repr

def SearchCursor.isValid (cursor : SearchCursor) : Bool :=
  !cursor.sessionId.isEmpty && !cursor.sourceFingerprint.isEmpty &&
    !cursor.catalogSnapshotId.isEmpty && 0 < cursor.position

structure SearchQuery where
  text : Bytes := []
  searchFields : SearchFieldScope := {}
  languages : List Bytes := []
  genres : List Bytes := []
  sortBy : Option BookSort := none
  sortDirection : Option SortDirection := none
  offset : Nat := 0
  limit : Nat := 50
  cursor : Option SearchCursor := none
  deriving DecidableEq, Repr

def SearchQuery.hasText (query : SearchQuery) : Bool := !query.text.isEmpty

theorem SearchCursor.isValid_iff {cursor : SearchCursor} : cursor.isValid = true ↔
    cursor.sessionId ≠ [] ∧ cursor.sourceFingerprint ≠ [] ∧ cursor.catalogSnapshotId ≠ [] ∧
      0 < cursor.position := by
  simp [isValid, and_assoc]

end InpxWebReader.Domain
