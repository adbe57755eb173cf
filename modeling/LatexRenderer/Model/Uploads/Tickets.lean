import LatexRenderer.Model.Rows
import LatexRenderer.Machine.Table
import LatexRenderer.Model.Jobs.System
import LatexRenderer.Model.Sources.SourcesRepository

/-! # The nonces of upload tickets

A ticket for a job's upload has its row in `used_nonces`, a ticket for a source's upload in
`source_upload_nonces`. The two tables have the same columns and the statements on them the same guards,
so one definition stands for both: `claimNonce` is also `claimSourceNonce`, and so on.
-/

namespace LatexRenderer

/-- `used_nonces.state` and `source_upload_nonces.state`. -/
inductive NonceState where
  | unused | claimed | consumed | released | expired
deriving DecidableEq, Repr

/-- A row of `used_nonces` or `source_upload_nonces`. -/
structure NonceRow where
  nonce : String
  state : NonceState
  claimOwner : Option String := none
  claimedAt : Option Timestamp := none
  claimExpiresAt : Option Timestamp := none
  usedAt : Option Timestamp := none
  expiresAt : Timestamp

namespace NonceRow

def insertNonce (nonce : String) (expiresAt : Timestamp) : NonceRow where
  nonce := nonce
  state := .unused
  expiresAt := expiresAt

/-- No upload has the ticket in use, and it was not used up. -/
def isFree (row : NonceRow) : Prop :=
  row.state ∈ [.unused, .released]

instance (row : NonceRow) : Decidable row.isFree := by
  unfold isFree
  infer_instance

def claimNonce (owner : String) (timestamp claimUntil : Timestamp) (row : NonceRow) : Option NonceRow :=
  if row.isFree ∧ row.expiresAt > timestamp then
    some { row with
      state := .claimed
      claimOwner := some owner
      claimedAt := some timestamp
      claimExpiresAt := some claimUntil }
  else none

/-- `state='claimed' AND claim_owner=? AND claim_expires_at>?`: the claim is this upload's and still
runs. -/
def claimedBy (owner : String) (timestamp : Timestamp) (row : NonceRow) : Prop :=
  row.state = .claimed ∧ row.claimOwner = some owner ∧ ∃ expires ∈ row.claimExpiresAt, expires > timestamp

instance (owner : String) (timestamp : Timestamp) (row : NonceRow) :
    Decidable (row.claimedBy owner timestamp) := by
  unfold claimedBy
  infer_instance

def extendNonceClaim (owner : String) (timestamp claimUntil : Timestamp) (row : NonceRow) :
    Option NonceRow :=
  if row.claimedBy owner timestamp then some { row with claimExpiresAt := some claimUntil } else none

def consumeNonce (owner : String) (timestamp : Timestamp) (row : NonceRow) : Option NonceRow :=
  if row.claimedBy owner timestamp then
    some { row with state := .consumed, usedAt := some timestamp, claimExpiresAt := none }
  else none

def releaseNonce (owner : String) (timestamp : Timestamp) (row : NonceRow) : Option NonceRow :=
  if row.claimedBy owner timestamp then
    some { row with state := .released, claimOwner := none, claimedAt := none, claimExpiresAt := none }
  else none

/-- The claim of the cleanup script's recovery: `claim_expires_at IS NULL OR claim_expires_at<=?`. -/
def claimStale (timestamp : Timestamp) (row : NonceRow) : Prop :=
  row.state = .claimed ∧ ∀ expires ∈ row.claimExpiresAt, expires ≤ timestamp

instance (timestamp : Timestamp) (row : NonceRow) : Decidable (row.claimStale timestamp) := by
  unfold claimStale
  infer_instance

/-- The recovery of a stale claim, for the owner that the script has read. -/
def recoverClaim (owner : String) (timestamp : Timestamp) (row : NonceRow) : Option NonceRow :=
  if row.claimStale timestamp ∧ row.claimOwner = some owner then
    some { row with
      state := if row.expiresAt > timestamp then .released else .expired
      claimOwner := none
      claimedAt := none
      claimExpiresAt := none }
  else none

/-- The expiry of a ticket that no upload has in use. -/
def expireNonce (now : Timestamp) (row : NonceRow) : Option NonceRow :=
  if row.expiresAt < now ∧ row.isFree then
    some { row with state := .expired, claimOwner := none, claimedAt := none, claimExpiresAt := none }
  else none

/-- `DELETE … WHERE expires_at<? AND state!='claimed'`: whether the row goes. -/
def deletable (now : Timestamp) (row : NonceRow) : Bool :=
  row.expiresAt < now && row.state ≠ .claimed

/-- The unexpired claim that keeps the reservation expiry away from the job and the source. -/
def claimActive (now : Timestamp) (row : NonceRow) : Bool :=
  row.state = .claimed && row.claimExpiresAt.any (· > now)

end NonceRow

end LatexRenderer

/-! ## An upload ticket under everything that touches it

A ticket is a nonce with the job and the source its upload fills: a job ticket has a job and, except for
jobs from before shared sources, a source; a source ticket has a source only. Any number of requests
may present it; each is an `Upload`, known by the claim owner it has drawn. The transactions of the
renderer API and of the cleanup script are partial functions of the whole; `none` is a transaction that
was refused or rolled back. Every timestamp is one that its caller has read at or before the step.
-/

namespace LatexRenderer

open Machine

/-- What a request in `uploadSource` remembers: its claim owner, the expiry that its claim or its last
heartbeat has set, and whether a heartbeat found the claim lost or the request is through. -/
structure Upload where
  claimOwner : String
  claimUntil : Timestamp
  lost : Bool := false
  ended : Bool := false

namespace Upload

/-- A heartbeat moved the expiry. Once one has failed, no further one is tried. -/
def extend (claimUntil : Timestamp) (upload : Upload) : Option Upload :=
  if upload.lost || upload.ended then none else some { upload with claimUntil := claimUntil }

/-- A heartbeat found the claim lost. -/
def lose (upload : Upload) : Option Upload :=
  if upload.lost || upload.ended then none else some { upload with lost := true }

/-- The request is through, in success or failure. -/
def finish (upload : Upload) : Option Upload :=
  if upload.ended then none else some { upload with ended := true }

end Upload

structure UploadSystem where
  clock : Timestamp
  nonce : Option NonceRow
  job : Option Job
  source : Option SourceRow
  uploads : List Upload := []

/-- A ticket as one of its issuers inserts it, with the rows its upload will fill. -/
inductive UploadSystem.Issued : UploadSystem → Prop
  | legacyJob (clock : Timestamp) (nonce : String) (expiresAt : Timestamp) (job : ReservedInput)
      (noSource : job.sourceId = none) :
      Issued
        { clock := clock, nonce := some (.insertNonce nonce expiresAt),
          job := some { row := insertReserved job }, source := none }
  | job (clock : Timestamp) (nonce : String) (expiresAt : Timestamp) (job : ReservedInput)
      (source : SourceReservation) (filled : job.sourceId = some source.id) :
      Issued
        { clock := clock, nonce := some (.insertNonce nonce expiresAt),
          job := some { row := insertReserved job }, source := some (.insertReserved source) }
  | source (clock : Timestamp) (nonce : String) (expiresAt : Timestamp) (source : SourceReservation) :
      Issued
        { clock := clock, nonce := some (.insertNonce nonce expiresAt),
          job := none, source := some (.insertReserved source) }

namespace UploadSystem

/-- Change what the request with this claim owner remembers. -/
def updateUpload (owner : String) (change : Upload → Option Upload) (s : UploadSystem) :
    Option UploadSystem :=
  (update? (·.claimOwner == owner) change s.uploads).map fun uploads => { s with uploads := uploads }

/-- The transaction that starts an upload: the claim under a new owner, and the rows go from `reserved`
to `uploading`. -/
def beginUpload (maxOutputBytes : Nat) (owner : String) (now claimUntil timestamp : Timestamp)
    (s : UploadSystem) : Option UploadSystem :=
  if s.uploads.all (·.claimOwner ≠ owner) then do
    let nonce ← s.nonce.bind (·.claimNonce owner now claimUntil)
    let job ← s.job.mapM (JobAction.run maxOutputBytes · (.uploadStarted timestamp))
    let source ← s.source.mapM (·.transition [.reserved] .uploading timestamp {})
    some { s with
      nonce := some nonce
      job := job
      source := source
      uploads := s.uploads ++ [{ claimOwner := owner, claimUntil := claimUntil }] }
  else none

/-- `extend` of the heartbeat, which `assertOwned` and `tryRetain` run too. -/
def extendClaim (owner : String) (timestamp claimUntil : Timestamp) (s : UploadSystem) :
    Option UploadSystem :=
  match s.nonce.bind (·.extendNonceClaim owner timestamp claimUntil) with
  | some nonce => ({ s with nonce := some nonce } : UploadSystem).updateUpload owner (·.extend claimUntil)
  | none => s.updateUpload owner Upload.lose

/-- The transaction that ends a verified upload. -/
def finishUpload (maxOutputBytes : Nat) (owner : String) (now timestamp expiresAt : Timestamp)
    (paths : List String) (s : UploadSystem) : Option UploadSystem := do
  let ended ← s.updateUpload owner Upload.finish
  let nonce ← s.nonce.bind (·.consumeNonce owner now)
  let source ← s.source.mapM (·.transition [.uploading] .ready timestamp
    { uploadedAt := some timestamp, expiresAt := some expiresAt, paths := some paths })
  let job ← s.job.mapM (JobAction.run maxOutputBytes · (.uploadFinished timestamp))
  some { ended with nonce := some nonce, job := job, source := source }

/-- The rows go back from `uploading` to `reserved`; a row that has moved on is left alone. -/
def restoreRows (maxOutputBytes : Nat) (timestamp : Timestamp) (s : UploadSystem) : UploadSystem :=
  { s with
    source := s.source.map fun source => (source.restoreReserved timestamp).getD source
    job := s.job.map fun job => (JobAction.run maxOutputBytes job (.uploadFailed timestamp)).getD job }

/-- The transaction of a failed upload, after `tryRetain`. Only a claim that was released gives the rows
back. -/
def releaseUpload (maxOutputBytes : Nat) (owner : String) (timestamp : Timestamp) (s : UploadSystem) :
    Option UploadSystem := do
  let ended ← s.updateUpload owner Upload.finish
  match s.nonce.bind (·.releaseNonce owner timestamp) with
  | some nonce => some (({ ended with nonce := some nonce } : UploadSystem).restoreRows maxOutputBytes timestamp)
  | none => some ended

/-- `recoverStaleJobUploads` and `recoverStaleSourceUploads` on this ticket. -/
def recoverStaleUpload (maxOutputBytes : Nat) (owner : String) (timestamp : Timestamp)
    (s : UploadSystem) : Option UploadSystem := do
  let nonce ← s.nonce.bind (·.recoverClaim owner timestamp)
  some (({ s with nonce := some nonce } : UploadSystem).restoreRows maxOutputBytes timestamp)

/-- Whether an upload has an unexpired claim, as the reservation expiry asks. -/
def claimActive (now : Timestamp) (s : UploadSystem) : Bool :=
  s.nonce.any (·.claimActive now)

end UploadSystem

/-- One step on a ticket or on one of its rows. The first four are those of the requests that present the
ticket, the next five the cleanup script's; a job or source action is any other statement on the row. -/
inductive UploadAction where
  | beginUpload (owner : String) (now claimUntil timestamp : Timestamp)
  | extendClaim (owner : String) (timestamp claimUntil : Timestamp)
  | finishUpload (owner : String) (now timestamp expiresAt : Timestamp) (paths : List String)
  | releaseUpload (owner : String) (timestamp : Timestamp)
  | recoverStaleUpload (owner : String) (timestamp : Timestamp)
  | expireJob (now cutoff : Timestamp)
  | expireNonce (now : Timestamp)
  | expireSource (now : Timestamp)
  | deleteNonce (now : Timestamp)
  | job (action : JobAction)
  | source (action : SourceAction)
  | advance (now : Timestamp)

namespace UploadAction

/-- The timestamp in the guards of a step on the nonce. -/
def timestamp? : UploadAction → Option Timestamp
  | .beginUpload _ now _ _ | .finishUpload _ now _ _ _ => some now
  | .extendClaim _ now _ | .releaseUpload _ now | .recoverStaleUpload _ now => some now
  | .expireJob now _ | .expireNonce now | .expireSource now | .deleteNonce now => some now
  | .job _ | .source _ | .advance _ => none

/-- The request that takes a step with its claim. -/
def uploader? : UploadAction → Option String
  | .extendClaim owner _ _ | .finishUpload owner _ _ _ _ | .releaseUpload owner _ => some owner
  | _ => none

/-- The other statements on a job: everything but the ticket's own and the reservation expiry. -/
def otherJob : JobAction → Bool
  | .uploadStarted _ | .uploadFinished _ | .uploadFailed _ | .expireReservation .. => false
  | _ => true

/-- The other statements on a source. Only a source that the remote MCP server has reserved for itself
goes through `chunksStarted` and `stored`. -/
def otherSource : SourceAction → Bool
  | .uploadStarted _ | .uploadFinished .. | .uploadFailed _ | .chunksStarted _ | .stored ..
  | .expireReservation .. => false
  | _ => true

/-- The effect of a step; `none` changes nothing. -/
def run (maxOutputBytes : Nat) (s : UploadSystem) : UploadAction → Option UploadSystem
  | .beginUpload owner now claimUntil timestamp =>
    s.beginUpload maxOutputBytes owner now claimUntil timestamp
  | .extendClaim owner timestamp claimUntil => s.extendClaim owner timestamp claimUntil
  | .finishUpload owner now timestamp expiresAt paths =>
    s.finishUpload maxOutputBytes owner now timestamp expiresAt paths
  | .releaseUpload owner timestamp => s.releaseUpload maxOutputBytes owner timestamp
  | .recoverStaleUpload owner timestamp => s.recoverStaleUpload maxOutputBytes owner timestamp
  | .expireJob now cutoff => do
    let job ← s.job.bind (JobAction.run maxOutputBytes · (.expireReservation now cutoff (s.claimActive now)))
    some { s with job := some job }
  | .expireNonce now => do
    let nonce ← s.nonce.bind (·.expireNonce now)
    some { s with nonce := some nonce }
  | .expireSource now => do
    let source ← s.source.bind (·.expireReservation now (s.claimActive now))
    some { s with source := some source }
  | .deleteNonce now => if s.nonce.any (·.deletable now) then some { s with nonce := none } else none
  | .job action =>
    if otherJob action then do
      let job ← s.job.bind (JobAction.run maxOutputBytes · action)
      some { s with job := some job }
    else none
  | .source action =>
    if otherSource action then do
      let source ← s.source.bind action.run
      some { s with source := some source }
    else none
  | .advance now => if s.clock ≤ now then some { s with clock := now } else none

/-- A step whose timestamp is not ahead of the clock. -/
def step (maxOutputBytes : Nat) (s : UploadSystem) (action : UploadAction) : Option UploadSystem :=
  if ∀ timestamp ∈ action.timestamp?, timestamp ≤ s.clock then action.run maxOutputBytes s else none

end UploadAction

/-- One ticket from its issue on, under any interleaving. -/
def uploadMachine (maxOutputBytes : Nat) : LabeledMachine UploadSystem UploadAction :=
  ofPartial UploadSystem.Issued (UploadAction.step maxOutputBytes)

end LatexRenderer
