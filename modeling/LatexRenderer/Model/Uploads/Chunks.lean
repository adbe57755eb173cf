import LatexRenderer.Machine.Blocks
import LatexRenderer.Machine.Table
import LatexRenderer.Model.Sources.SourcesRepository

/-! # Chunked uploads of the remote MCP server

An upload in chunks is a `sources` row with a directory: the archive, empty until the upload is
finalized, and below it `.chunks`, where each chunk is a file named by its offset. Any number of
`appendSourceChunk` and `completeSourceUpload` calls work on it, each under a lease owner of its own; a
call that crashes or stalls is one that takes no further step, or takes it late. Timestamps are whatever
their callers have read. `accepted` is not stored anywhere: it records the chunks that
`commitUploadOffset` has accepted.
-/

namespace LatexRenderer

open Machine

abbrev Bytes := List UInt8

def sourceUploadChunkMaxBytes : Nat := 512 * 1024

/-- How far a call of `appendSourceChunk` has come. -/
inductive WriterPhase where
  | leased (leaseExpiresAt : Timestamp)
  | read
  | inspected
  | written
  | ended
deriving DecidableEq, Repr

/-- A call of `appendSourceChunk`. -/
structure ChunkWriter where
  leaseOwner : String
  offset : Nat
  bytes : Bytes
  phase : WriterPhase

/-- How far a call of `completeSourceUpload` has come. `assembled` is the content of its `.finalizing`
file, or `none` when the archive was in place already. -/
inductive FinalizerPhase where
  | leased (leaseExpiresAt : Timestamp)
  | read
  | assembling (file : Cursor UInt8)
  | inPlace
  | verified (assembled : Option Bytes)
  | renewed (assembled : Option Bytes)
  | promoted
  | completed
  | ended

/-- A call of `completeSourceUpload`. -/
structure ChunkFinalizer where
  leaseOwner : String
  phase : FinalizerPhase

structure ChunkUpload where
  row : SourceRow
  archive : Option Bytes := none
  chunks : Option (List (Nat × Bytes)) := none
  writers : List ChunkWriter := []
  finalizers : List ChunkFinalizer := []
  accepted : List (Nat × Bytes) := []

/-- A reservation of `beginSourceUpload`, with no files yet. -/
inductive ChunkUpload.Begun : ChunkUpload → Prop
  | reserve (input : SourceReservation) (size : 1 ≤ input.size) :
      Begun { row := .insertReserved input }

namespace ChunkUpload

/-- The file of a chunk. -/
def chunk? (s : ChunkUpload) (offset : Nat) : Option Bytes :=
  s.chunks.bind (·.lookup offset)

/-- The size checks on a chunk file in `assembleUploadChunks`. -/
def chunkFits (expectedBytes offset : Nat) (content : Bytes) : Bool :=
  content.length ≤ sourceUploadChunkMaxBytes && offset + content.length ≤ expectedBytes

/-- One round of the loop of `assembleUploadChunks`. -/
def copyChunk (s : ChunkUpload) (file : Cursor UInt8) : Option (Cursor UInt8) :=
  file.advance s.chunk? (chunkFits s.row.size)

/-- `assembleUploadChunks`, when nothing else happens meanwhile. -/
def assembleUploadChunks (s : ChunkUpload) : Option Bytes :=
  ({} : Cursor UInt8).assemble s.chunk? (chunkFits s.row.size) s.row.size

/-- The directory and its empty archive. -/
def prepareFiles (s : ChunkUpload) : Option ChunkUpload :=
  if s.row.status = .reserved ∧ s.archive = none ∧ s.chunks = none then
    some { s with archive := some [], chunks := some [] }
  else none

/-- The last transaction of `beginSourceUpload`, once the files are there. -/
def startUpload (now : Timestamp) (s : ChunkUpload) : Option ChunkUpload :=
  if s.archive = some [] ∧ s.chunks.isSome then
    (s.row.transitionBeforeExpiry [.reserved] .uploading now {}).map fun row => { s with row := row }
  else none

/-- Step a call of `appendSourceChunk` on. -/
def updateWriter (leaseOwner : String) (change : ChunkWriter → Option ChunkWriter) (s : ChunkUpload) :
    Option ChunkUpload :=
  (update? (·.leaseOwner == leaseOwner) change s.writers).map fun writers => { s with writers := writers }

/-- Step a call of `completeSourceUpload` on. -/
def updateFinalizer (leaseOwner : String) (change : FinalizerPhase → Option FinalizerPhase)
    (s : ChunkUpload) : Option ChunkUpload :=
  (update? (·.leaseOwner == leaseOwner) (fun call =>
    (change call.phase).map fun phase => { call with phase := phase }) s.finalizers).map
      fun finalizers => { s with finalizers := finalizers }

/-- No call has drawn this lease owner, which carries a random UUID. -/
def isNewOwner (leaseOwner : String) (s : ChunkUpload) : Bool :=
  s.writers.all (·.leaseOwner ≠ leaseOwner) && s.finalizers.all (·.leaseOwner ≠ leaseOwner)

/-- A call of `appendSourceChunk` passes the checks on its chunk and claims the lease. -/
def claimChunk (ownerUserId leaseOwner : String) (now leaseExpiresAt : Timestamp) (offset : Nat)
    (bytes : Bytes) (s : ChunkUpload) : Option ChunkUpload :=
  if s.isNewOwner leaseOwner ∧ 1 ≤ bytes.length ∧ bytes.length ≤ sourceUploadChunkMaxBytes then
    (s.row.claimUploadLease ownerUserId leaseOwner now leaseExpiresAt).map fun row =>
      { s with
        row := row
        writers := s.writers ++ [⟨leaseOwner, offset, bytes, .leased leaseExpiresAt⟩] }
  else none

/-- `claimUploadLease` hands out the row it reads back only if the lease is still the caller's. -/
def stillLeased (row : SourceRow) (leaseOwner : String) (leaseExpiresAt : Timestamp) : Prop :=
  row.uploadLeaseOwner = some leaseOwner ∧ row.uploadLeaseExpiresAt = some leaseExpiresAt

instance (row : SourceRow) (leaseOwner : String) (leaseExpiresAt : Timestamp) :
    Decidable (stillLeased row leaseOwner leaseExpiresAt) := by
  unfold stillLeased
  infer_instance

/-- The row is read back, and the chunk must go on where it says and stay within the declared size. -/
def readRow (s : ChunkUpload) (call : ChunkWriter) : Option ChunkWriter :=
  match call.phase with
  | .leased leaseExpiresAt =>
    if stillLeased s.row call.leaseOwner leaseExpiresAt ∧
        call.offset = s.row.uploadReceivedBytes ∧ call.offset + call.bytes.length ≤ s.row.size then
      some { call with phase := .read }
    else none
  | _ => none

/-- The archive must be empty and the chunk directory there. -/
def inspect (s : ChunkUpload) (call : ChunkWriter) : Option ChunkWriter :=
  if call.phase = .read ∧ s.archive = some [] ∧ s.chunks.isSome then
    some { call with phase := .inspected }
  else none

/-- `writeUploadChunk`: the link creates the chunk's file; where there is one already, it must have the
same content. -/
def writeUploadChunk (leaseOwner : String) (s : ChunkUpload) : Option ChunkUpload := do
  let call ← s.writers.find? (·.leaseOwner == leaseOwner)
  let chunks ← s.chunks
  let next ← s.updateWriter leaseOwner fun call =>
    if call.phase = .inspected then some { call with phase := .written } else none
  match chunks.lookup call.offset with
  | none => some { next with chunks := some ((call.offset, call.bytes) :: chunks) }
  | some existing => if existing = call.bytes then some next else none

/-- `commitUploadOffset` for the chunk that was written. -/
def commitChunk (leaseOwner : String) (now : Timestamp) (s : ChunkUpload) : Option ChunkUpload := do
  let call ← s.writers.find? (·.leaseOwner == leaseOwner)
  let next ← s.updateWriter leaseOwner fun call =>
    if call.phase = .written then some { call with phase := .ended } else none
  let row ← s.row.commitUploadOffset leaseOwner call.offset (call.offset + call.bytes.length) now
  some { next with row := row, accepted := s.accepted ++ [(call.offset, call.bytes)] }

/-- A call of `completeSourceUpload` claims the lease. -/
def claimFinalize (ownerUserId leaseOwner : String) (now leaseExpiresAt : Timestamp) (s : ChunkUpload) :
    Option ChunkUpload :=
  if s.isNewOwner leaseOwner then
    (s.row.claimUploadLease ownerUserId leaseOwner now leaseExpiresAt).map fun row =>
      { s with row := row, finalizers := s.finalizers ++ [⟨leaseOwner, .leased leaseExpiresAt⟩] }
  else none

/-- The row is read back; every byte must have been received. -/
def readFinalize (leaseOwner : String) (s : ChunkUpload) : Option ChunkUpload :=
  s.updateFinalizer leaseOwner fun
    | .leased leaseExpiresAt =>
      if stillLeased s.row leaseOwner leaseExpiresAt ∧ s.row.uploadReceivedBytes = s.row.size then
        some .read
      else none
    | _ => none

/-- The archive is empty and will be assembled, or has the declared size and is in place already. -/
def openArchive (leaseOwner : String) (s : ChunkUpload) : Option ChunkUpload := do
  let archive ← s.archive
  s.updateFinalizer leaseOwner fun
    | .read =>
      if archive.length = s.row.size then some .inPlace
      else if archive = [] then some (.assembling {})
      else none
    | _ => none

/-- A round of `assembleUploadChunks`. -/
def copyNext (leaseOwner : String) (s : ChunkUpload) : Option ChunkUpload :=
  s.updateFinalizer leaseOwner fun
    | .assembling file =>
      if file.offset < s.row.size then (s.copyChunk file).map .assembling else none
    | _ => none

/-- Size and digest are the declared ones. -/
def declared (sha256 : Bytes → Sha256) (row : SourceRow) (content : Bytes) : Prop :=
  content.length = row.size ∧ sha256 content = row.sha256

instance (sha256 : Bytes → Sha256) (row : SourceRow) (content : Bytes) :
    Decidable (declared sha256 row content) := by
  unfold declared
  infer_instance

/-- The check of the assembled archive, or of the one in place. -/
def verify (sha256 : Bytes → Sha256) (leaseOwner : String) (s : ChunkUpload) : Option ChunkUpload :=
  s.updateFinalizer leaseOwner fun
    | .assembling file =>
      if s.row.size ≤ file.offset ∧ declared sha256 s.row file.output then some (.verified (some file.output))
      else none
    | .inPlace => if ∃ content ∈ s.archive, declared sha256 s.row content then some (.verified none) else none
    | _ => none

/-- `renewLease`: the heartbeat of a finalization, and the renewal between its checks and the rename. -/
def renewLease (leaseOwner : String) (now leaseExpiresAt : Timestamp) (s : ChunkUpload) :
    Option ChunkUpload := do
  let row ← s.row.extendUploadLease leaseOwner now leaseExpiresAt
  ({ s with row := row } : ChunkUpload).updateFinalizer leaseOwner fun
    | .verified assembled => some (.renewed assembled)
    | .ended => none
    | phase => some phase

/-- The assembled archive is renamed into place. -/
def promote (leaseOwner : String) (s : ChunkUpload) : Option ChunkUpload := do
  let call ← s.finalizers.find? (·.leaseOwner == leaseOwner)
  let next ← s.updateFinalizer leaseOwner fun
    | .renewed _ => some .promoted
    | _ => none
  match call.phase with
  | .renewed (some content) => some { next with archive := some content }
  | _ => some next

/-- `completeUpload`: the source becomes ready. -/
def complete (leaseOwner : String) (now expiresAt : Timestamp) (paths : List String) (s : ChunkUpload) :
    Option ChunkUpload := do
  let row ← s.row.completeUpload leaseOwner now expiresAt paths
  ({ s with row := row } : ChunkUpload).updateFinalizer leaseOwner fun
    | .promoted => some .completed
    | _ => none

/-- The `finally` of a call gives its lease back, if it still has it. -/
def releaseLease (leaseOwner : String) (s : ChunkUpload) : ChunkUpload :=
  { s with row := (s.row.releaseUploadLease leaseOwner).getD s.row }

/-- Chunk files are removed by a call that has completed the upload, and with the archive by the cleanup
script. -/
def chunksRemovable (s : ChunkUpload) : Prop :=
  s.row.status = .deleting ∨ ∃ call ∈ s.finalizers, call.phase matches .completed

instance (s : ChunkUpload) : Decidable s.chunksRemovable := by
  unfold chunksRemovable
  infer_instance

end ChunkUpload

/-- One step on a chunked upload. -/
inductive ChunkAction where
  | prepareFiles
  | startUpload (now : Timestamp)
  | claimChunk (ownerUserId leaseOwner : String) (now leaseExpiresAt : Timestamp) (offset : Nat)
      (bytes : Bytes)
  | readRow (leaseOwner : String)
  | inspect (leaseOwner : String)
  | writeUploadChunk (leaseOwner : String)
  | commitChunk (leaseOwner : String) (now : Timestamp)
  | releaseChunk (leaseOwner : String)
  | claimFinalize (ownerUserId leaseOwner : String) (now leaseExpiresAt : Timestamp)
  | readFinalize (leaseOwner : String)
  | openArchive (leaseOwner : String)
  | copyNext (leaseOwner : String)
  | verify (leaseOwner : String)
  | renewLease (leaseOwner : String) (now leaseExpiresAt : Timestamp)
  | promote (leaseOwner : String)
  | complete (leaseOwner : String) (now expiresAt : Timestamp) (paths : List String)
  | releaseFinalize (leaseOwner : String)
  | removeChunk (offset : Nat)
  | removeChunks
  | removeArchive
  | source (action : SourceAction)

namespace ChunkAction

/-- The statements on the row that are not the upload's own. -/
def otherSource : SourceAction → Bool
  | .markDeleting .. | .expireReservation .. | .endRetention .. | .claimDeletion .. | .finishDeletion ..
  | .failDeletion .. => true
  | _ => false

/-- The effect of a step; `none` changes nothing. -/
def run (sha256 : Bytes → Sha256) (s : ChunkUpload) : ChunkAction → Option ChunkUpload
  | .prepareFiles => s.prepareFiles
  | .startUpload now => s.startUpload now
  | .claimChunk ownerUserId leaseOwner now leaseExpiresAt offset bytes =>
    s.claimChunk ownerUserId leaseOwner now leaseExpiresAt offset bytes
  | .readRow leaseOwner => s.updateWriter leaseOwner s.readRow
  | .inspect leaseOwner => s.updateWriter leaseOwner s.inspect
  | .writeUploadChunk leaseOwner => s.writeUploadChunk leaseOwner
  | .commitChunk leaseOwner now => s.commitChunk leaseOwner now
  | .releaseChunk leaseOwner =>
    (s.releaseLease leaseOwner).updateWriter leaseOwner fun call => some { call with phase := .ended }
  | .claimFinalize ownerUserId leaseOwner now leaseExpiresAt =>
    s.claimFinalize ownerUserId leaseOwner now leaseExpiresAt
  | .readFinalize leaseOwner => s.readFinalize leaseOwner
  | .openArchive leaseOwner => s.openArchive leaseOwner
  | .copyNext leaseOwner => s.copyNext leaseOwner
  | .verify leaseOwner => s.verify sha256 leaseOwner
  | .renewLease leaseOwner now leaseExpiresAt => s.renewLease leaseOwner now leaseExpiresAt
  | .promote leaseOwner => s.promote leaseOwner
  | .complete leaseOwner now expiresAt paths => s.complete leaseOwner now expiresAt paths
  | .releaseFinalize leaseOwner => (s.releaseLease leaseOwner).updateFinalizer leaseOwner fun _ => some .ended
  | .removeChunk offset =>
    if s.chunksRemovable then
      some { s with chunks := s.chunks.map fun chunks => chunks.filter (·.1 ≠ offset) }
    else none
  | .removeChunks => if s.chunksRemovable then some { s with chunks := none } else none
  | .removeArchive => if s.row.status = .deleting then some { s with archive := none } else none
  | .source action =>
    if otherSource action then (action.run s.row).map fun row => { s with row := row } else none

end ChunkAction

/-- One chunked upload from its reservation on, under any interleaving. -/
def chunkMachine (sha256 : Bytes → Sha256) : LabeledMachine ChunkUpload ChunkAction :=
  ofPartial ChunkUpload.Begun (ChunkAction.run sha256)

end LatexRenderer
