import Mathlib.Data.List.Sort
import Mathlib.Data.Prod.Lex
import Mathlib.Data.String.Basic
import LatexRenderer.Model.SourceStore

/-! # Pages of the project list

`listOwnedPage` returns the projects of an owner, the last updated first, and a cursor for the next page: the sort values of
the last project of the page. Between two requests of a client anything may happen to the projects.
-/

namespace LatexRenderer

open Machine

/-- The values of a project cursor. -/
structure ProjectCursor where
  updatedAt : Timestamp
  id : String
deriving DecidableEq

/-- `ProjectSummaryRow`: a project with the number of its revisions and the last of them. -/
structure ProjectSummaryRow extends ProjectRow where
  revisionCount : Nat
  latestRevision : Option ProjectRevisionRow

namespace ProjectRow

/-- `ORDER BY p.updated_at DESC,p.id DESC` orders by these values. -/
def sortValues (row : ProjectRow) : ℕ ×ₗ String := toLex (row.updatedAt, row.id)

/-- `p.updated_at < ? OR (p.updated_at = ? AND p.id < ?)`. -/
def follows (cursor : ProjectCursor) (row : ProjectRow) : Bool :=
  decide (row.updatedAt < cursor.updatedAt) || decide (row.updatedAt = cursor.updatedAt) && decide (row.id < cursor.id)

end ProjectRow

namespace ProjectTables

/-- `ORDER BY r2.revision_number DESC,r2.id DESC LIMIT 1`. -/
def latestRevision (projectId : String) (tables : ProjectTables) : Option ProjectRevisionRow :=
  ((tables.revisions.filter (·.projectId == projectId)).insertionSort fun first second =>
    toLex (second.revisionNumber, second.id) ≤ toLex (first.revisionNumber, first.id)).head?

/-- The columns of a page row. -/
def summary (tables : ProjectTables) (project : ProjectRow) : ProjectSummaryRow where
  toProjectRow := project
  revisionCount := tables.revisions.countP (·.projectId == project.id)
  latestRevision := tables.latestRevision project.id

/-- The projects that the query of a page finds. -/
def pageRows (ownerUserId : String) (cursor : Option ProjectCursor) (limit : Nat) (tables : ProjectTables) :
    List ProjectRow :=
  ((tables.projects.filter fun row => decide (row.owned ownerUserId) && cursor.all fun last => row.follows last).insertionSort
    fun first second => second.sortValues ≤ first.sortValues).take (limit + 1)

/-- `listOwnedPage`: the items and the next cursor. -/
def listOwnedPage (ownerUserId : String) (cursor : Option ProjectCursor) (limit : Nat) (tables : ProjectTables) :
    List ProjectSummaryRow × Option ProjectCursor :=
  let rows := tables.pageRows ownerUserId cursor limit
  if limit < rows.length then
    (rows.dropLast.map tables.summary, rows.dropLast.getLast?.map fun last => ⟨last.updatedAt, last.id⟩)
  else (rows.map tables.summary, none)

end ProjectTables

/-- How far a client has come. -/
inductive ListPosition where
  | start
  | after (cursor : ProjectCursor)
  | finished
deriving DecidableEq

/-- The store and a client that lists the projects of an owner; with it the ids of what it was given and of the projects
that have existed and matched since its first request. -/
structure ProjectListing where
  store : SourceStore
  ownerUserId : String
  position : ListPosition
  returned : List String
  present : List String

/-- A committed transaction, or the next request of the client, with a page size of its own. -/
inductive ListingEvent where
  | change (action : SourceStoreAction)
  | request (limit : Nat)

namespace ProjectListing

/-- Whether the owner has a project. -/
def has (s : ProjectListing) (id : String) : Bool :=
  s.store.projects.any fun row => row.id == id && decide (row.owned s.ownerUserId)

/-- The answer to a request with this cursor; `pageSize` lets no size below one pass. -/
def answer (cursor : Option ProjectCursor) (limit : Nat) (s : ProjectListing) : ProjectListing :=
  let page := s.store.listOwnedPage s.ownerUserId cursor limit
  { s with
    position := page.2.elim .finished .after
    returned := s.returned ++ page.1.map (·.id) }

/-- One event. -/
def step (limits : Limits) (s : ProjectListing) : ListingEvent → Option ProjectListing
  | .change action => (action.run limits s.store).map fun store =>
    { s with
      store := store
      present := s.present.filter { s with store := store }.has }
  | .request limit =>
    if limit = 0 then none
    else match s.position with
      | .start => some (answer none limit
        { s with present := (s.store.projects.filter fun row => decide (row.owned s.ownerUserId)).map (·.id) })
      | .after cursor => some (s.answer (some cursor) limit)
      | .finished => none

end ProjectListing

/-- Any store that transactions lead to, any owner, and any interleaving of transactions and requests. -/
def listingMachine (limits : Limits) : LabeledMachine ProjectListing ListingEvent :=
  ofPartial (fun s => Reachable (sourceStoreMachine limits) s.store ∧ s.position = .start ∧ s.returned = [] ∧ s.present = [])
    (ProjectListing.step limits)

end LatexRenderer
