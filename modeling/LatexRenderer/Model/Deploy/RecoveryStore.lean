import Mathlib.Data.List.Sort
import LatexRenderer.Machine.Process

/-! # The recovery points of an update

`RecoveryStore` keeps verified snapshots of the database and the storage. Creating one collects old points first,
estimates the room that the copies need, collects again for that room, prepares and verifies the snapshot in a work
directory and renames it into place.
-/

namespace LatexRenderer.RecoveryStore

open Machine

/-- What `recoveryPolicy` returns. -/
structure Policy where
  maxBytes : Nat
  minFreeBytes : Nat
  retainCount : Nat
  retainHours : Nat
  maxEntries : Nat
  positive : 1 ≤ maxBytes ∧ 1 ≤ retainCount ∧ 1 ≤ retainHours ∧ 1 ≤ maxEntries
  bounded : maxBytes ≤ 68719476736 ∧ retainCount ≤ 20 ∧ retainHours ≤ 8760 ∧ maxEntries ≤ 1000000 ∧
    minFreeBytes ≤ 9007199254740991

/-- The settings of a policy file; a setting may be left out. -/
structure Settings where
  maxBytes : Option Int := none
  minFreeBytes : Option Int := none
  retainCount : Option Int := none
  retainHours : Option Int := none
  maxEntries : Option Int := none

/-- `recoveryPolicy`: the settings over the defaults, when they are within bounds. -/
def recoveryPolicy (value : Settings) : Option Policy :=
  let maxBytes := value.maxBytes.getD 4294967296
  let minFreeBytes := value.minFreeBytes.getD 3221225472
  let retainCount := value.retainCount.getD 2
  let retainHours := value.retainHours.getD 168
  let maxEntries := value.maxEntries.getD 100000
  if accepted : (1 ≤ maxBytes ∧ 0 ≤ minFreeBytes ∧ 1 ≤ retainCount ∧ 1 ≤ retainHours ∧ 1 ≤ maxEntries) ∧
      maxBytes ≤ 68719476736 ∧ retainCount ≤ 20 ∧ retainHours ≤ 8760 ∧ maxEntries ≤ 1000000 ∧
      minFreeBytes ≤ 9007199254740991 then
    some {
      maxBytes := maxBytes.toNat
      minFreeBytes := minFreeBytes.toNat
      retainCount := retainCount.toNat
      retainHours := retainHours.toNat
      maxEntries := maxEntries.toNat
      positive := by omega
      bounded := by omega }
  else none

/-- A recovery point; `intact` tells whether `points` accepts its metadata and its archive. -/
structure Point where
  id : String
  createdAt : Int
  bytes : Nat
  intact : Bool
deriving DecidableEq, Repr

/-- The directories of a recovery store; the entries of a directory have different names. -/
structure Disk where
  points : List Point
  distinct : (points.map (·.id)).Nodup
  trash : List String
  staging : List String

/-- How a recovery operation fails. -/
inductive Failure where
  | host
  | corrupt
  | estimate
  | capacityBlocked
  | exceedsEstimate
  | exists_
deriving DecidableEq, Repr

instance : Fault Failure := ⟨.host⟩

/-- The steps of a recovery operation. -/
inductive Site where
  | initialize_
  | readTrash
  | temporaryState
  | readStaging
  | points
  | usage
  | inspect (name : String)
  | discard (id : String)
  | synchronize
  | remove (name : String)
  | inventory
  | database
  | free
  | work
  | prepare
  | place
deriving DecidableEq, Repr

/-- A recovery operation; the environment answers a measurement with two numbers. -/
abbrev Operation (α : Type) : Type :=
  Process Site Disk (Nat × Nat) Failure α

/-- The order of `points`: newest first. -/
def Point.newer (first second : Point) : Bool :=
  decide (second.createdAt < first.createdAt ∨ second.createdAt = first.createdAt ∧ second.id ≤ first.id)

/-- A step that leaves the points alone. -/
def step (site : Site) : Operation Unit := Process.ask site fun _ _ => .ok ()

/-- A measurement. -/
def measure (site : Site) : Operation (Nat × Nat) :=
  Process.ask site fun answer _ => .ok answer

/-- `points`: the points in order, or an error when one of them is not intact. -/
def points : Operation (List Point) :=
  Process.ask .points fun _ disk =>
    if disk.points.all (·.intact) then .ok (disk.points.mergeSort Point.newer) else .error .corrupt

/-- `remove`, of a trash entry. -/
def removeTrash (name : String) : Operation Unit := do
  step (.inspect name)
  Process.modify (.remove name) fun disk => { disk with trash := disk.trash.filter fun entry => decide (entry ≠ name) }
  step .synchronize

/-- `remove`, of a work directory. -/
def removeWork (name : String) : Operation Unit := do
  step (.inspect name)
  Process.modify (.remove name) fun disk =>
    { disk with staging := disk.staging.filter fun entry => decide (entry ≠ name) }
  step .synchronize

/-- The rename of `discard`. -/
def Disk.discard (id : String) (disk : Disk) : Disk where
  points := disk.points.filter fun point => decide (point.id ≠ id)
  distinct := disk.distinct.sublist (List.filter_sublist.map _)
  trash := id :: disk.trash
  staging := disk.staging

def discard (id : String) : Operation Unit := do
  step (.inspect id)
  Process.modify (.discard id) (Disk.discard id)
  step .synchronize
  step .synchronize
  removeTrash id

/-- The options of `collect`. -/
structure CollectOptions where
  protectedId : Option String := none
  now : Int
  additionalBytes : Nat := 0

/-- A point is past its retention. -/
def Policy.expired (policy : Policy) (now : Int) (point : Point) : Bool :=
  decide (now - point.createdAt > policy.retainHours * 3600000)

/-- Whether the store is too full for the point at this place. -/
def pressureAt (policy : Policy) (options : CollectOptions) (index : Nat) : Operation Bool :=
  if index > 0 then do
    let used ← measure .usage
    return decide (used.1 + options.additionalBytes > policy.maxBytes)
  else return false

/-- One turn of the loop of `collect`. -/
def collectPoint (policy : Policy) (options : CollectOptions) (entry : Point × Nat) :
    Operation Unit :=
  if options.protectedId = some entry.1.id then return ()
  else do
    let pressure ← pressureAt policy options entry.2
    if policy.expired options.now entry.1 ∨ policy.retainCount ≤ entry.2 ∨ pressure then discard entry.1.id
    else return ()

def collect (policy : Policy) (options : CollectOptions) : Operation Unit := do
  step .initialize_
  let trash ← Process.ask .readTrash fun _ disk => .ok disk.trash
  Process.each trash removeTrash
  step .temporaryState
  let staging ← Process.ask .readStaging fun _ disk => .ok disk.staging
  Process.each staging removeWork
  let points ← points
  -- From the oldest point to the newest.
  Process.each points.zipIdx.reverse (collectPoint policy options)

/-- What `create` is called with; `id` and `work` are the random names it draws. -/
structure CreateOptions where
  now : Int
  id : String
  work : String

/-- The new point in its place. -/
def Disk.place (point : Point) (disk : Disk) : Except Failure Disk :=
  if fresh : point.id ∉ disk.points.map (·.id) then
    .ok { disk with points := point :: disk.points, distinct := List.nodup_cons.mpr ⟨fresh, disk.distinct⟩ }
  else .error .exists_

/-- The snapshot, its verification and its rename into place. -/
def preparePoint (request : CreateOptions) (single : Nat) : Operation Unit := do
  let archive ← measure .prepare
  Process.require (archive.1 ≤ single) .exceedsEstimate
  Process.act .place fun _ disk =>
    (disk.place { id := request.id, createdAt := request.now, bytes := archive.1, intact := true }).map fun next => ((), next)
  step .synchronize

/-- The room for one copy: the storage with its entries, and the database with its pages that are not yet written. -/
def singleCopy (inventory : Nat × Nat) (databaseBytes : Nat) : Nat :=
  inventory.1 + 2 * databaseBytes + inventory.2 * 8192 + 67108864

/-- `Number.isSafeInteger`, of a number that is not negative. -/
def safeInteger (value : Nat) : Bool := decide (value ≤ 9007199254740991)

def create (policy : Policy) (request : CreateOptions) : Operation Unit := do
  collect policy { now := request.now }
  let inventory ← measure .inventory
  let database ← measure .database
  let single := singleCopy inventory database.1
  let peak := single * 3
  Process.require (safeInteger peak) .estimate
  collect policy { now := request.now, additionalBytes := peak }
  let free ← measure .free
  let used ← measure .usage
  Process.require (used.1 + peak ≤ policy.maxBytes ∧ peak + policy.minFreeBytes ≤ free.1) .capacityBlocked
  Process.modify .work fun disk => { disk with staging := request.work :: disk.staging }
  let result ← Process.outcome (preparePoint request single)
  removeWork request.work
  Process.ofExcept result

end LatexRenderer.RecoveryStore
