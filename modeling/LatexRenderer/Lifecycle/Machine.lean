import LatexRenderer.Machine.Run
import LatexRenderer.Model.Jobs.System

/-! # The lifecycle of a job

What the job table is for, without its bookkeeping columns: a status, the outcome kept for a job under
deletion, a lease with its generation, whether a cancel was requested, and how far the deletion has
come. `Lifecycle.Step` says once what each kind of caller can do to these; the refinement of
`JobAction.run` to it carries every invariant below to the code.
-/

namespace LatexRenderer

open Machine

/-- The lifecycle columns of a job. -/
structure Lifecycle where
  status : JobStatus
  renderStatus : Option TerminalStatus
  owner : Option String
  expires : Option Timestamp
  generation : Nat
  cancelRequested : Bool
  deletion : DeletionStatus

def JobRow.lifecycle (row : JobRow) : Lifecycle where
  status := row.status
  renderStatus := row.renderStatus
  owner := row.leaseOwner
  expires := row.leaseExpiresAt
  generation := row.leaseGeneration
  cancelRequested := row.cancelRequestedAt.isSome
  deletion := row.deletionStatus

/-- Who acts, and with which fence. -/
inductive LifecycleEvent where
  | housekeeping | upload | expire | cancel | delete | requeueSvg | claim | reclaim
  | worker (fence : Fence)
  | recoverQueued (fence : Fence)
  | cleanupClaim | cleanupFinish | cleanupFail
deriving DecidableEq, Repr

/-- The event of an action. -/
def JobAction.event : JobAction → LifecycleEvent
  | .uploadStarted _ | .uploadFinished _ | .uploadFailed _ => .upload
  | .expireReservation .. => .expire
  | .cancel _ => .cancel
  | .markDeleting _ => .delete
  | .requeueSvg _ => .requeueSvg
  | .attachProjectRevision _ | .blockAdmission .. | .clearAdmission _ => .housekeeping
  | .claimNext .. => .claim
  | .claimExpiredLease .. => .reclaim
  | .worker fence (.recoverQueued _) => .recoverQueued fence
  | .worker fence _ => .worker fence
  | .claimDeletion _ => .cleanupClaim
  | .finishDeletion _ => .cleanupFinish
  | .failDeletion .. => .cleanupFail

namespace Lifecycle

/-- The lease is held by this owner under this generation. -/
def heldBy (fence : Fence) (s : Lifecycle) : Prop :=
  s.owner = some fence.owner ∧ s.generation = fence.generation

/-- What each event may do. -/
inductive Step : Lifecycle → LifecycleEvent → Lifecycle → Prop
  | housekeeping (s : Lifecycle) : Step s .housekeeping s
  | uploadStarted {s : Lifecycle} (waiting : s.status = .reserved) :
      Step s .upload { s with status := .uploading }
  | uploadFinished {s : Lifecycle} (uploading : s.status = .uploading) :
      Step s .upload { s with status := .queued }
  | uploadFailed {s : Lifecycle} (uploading : s.status = .uploading) :
      Step s .upload { s with status := .reserved }
  | expire {s : Lifecycle} (waiting : s.status = .reserved ∨ s.status = .uploading) :
      Step s .expire { s with status := .expired, renderStatus := some .expired }
  | cancelAtOnce {s : Lifecycle} (waiting : s.status ∈ JobRow.cancelsAtOnce) :
      Step s .cancel { s with
        status := .canceled, renderStatus := some .canceled, cancelRequested := true }
  | cancelRunning {s : Lifecycle} (running : s.status = .running) :
      Step s .cancel { s with cancelRequested := true }
  | delete {s : Lifecycle} {terminal : TerminalStatus} (ended : s.status = terminal.toJob) :
      Step s .delete { s with
        status := .deleting, renderStatus := some terminal, deletion := .pending }
  | requeueSvg {s : Lifecycle}
      (ended : s.status = .failed ∨ s.status = .timeout ∨ s.status = .canceled)
      (free : s.owner = none) :
      Step s .requeueSvg { s with
        status := .queued, renderStatus := none, cancelRequested := false }
  | claim {s : Lifecycle} (queued : s.status = .queued) (owner : String) (expires : Timestamp) :
      Step s .claim { s with
        status := .validating, owner := some owner, expires := some expires,
        generation := s.generation + 1 }
  | reclaim {s : Lifecycle} (leased : s.status ∈ JobStatus.leased) (held : s.owner ≠ none)
      (owner : String) (expires : Timestamp) :
      Step s .reclaim { s with
        owner := some owner, expires := some expires, generation := s.generation + 1 }
  | work {s : Lifecycle} {fence : Fence} (held : s.heldBy fence) : Step s (.worker fence) s
  | renew {s : Lifecycle} {fence : Fence} (held : s.heldBy fence)
      (leased : s.status ∈ JobStatus.leased) (expires : Timestamp) :
      Step s (.worker fence) { s with expires := some expires }
  | start {s : Lifecycle} {fence : Fence} (held : s.heldBy fence) (validating : s.status = .validating) :
      Step s (.worker fence) { s with status := .running }
  | finish {s : Lifecycle} {fence : Fence} (held : s.heldBy fence)
      (leased : s.status ∈ JobStatus.leased) (terminal : TerminalStatus)
      (live : terminal ≠ .canceled → s.status = .validating ∨ s.status = .running)
      (success : terminal = .succeeded → s.status = .running ∧ s.cancelRequested = false)
      (ran : terminal ≠ .expired) :
      Step s (.worker fence) { s with
        status := terminal.toJob, renderStatus := some terminal, owner := none, expires := none }
  | recoverQueued {s : Lifecycle} {fence : Fence} (held : s.heldBy fence)
      (live : s.status = .validating ∨ s.status = .running) :
      Step s (.recoverQueued fence) { s with status := .queued, owner := none, expires := none }
  | cleanupClaim {s : Lifecycle}
      (due : s.deletion = .retained ∧ s.status.terminal?.isSome ∨
        s.status = .deleting ∧ s.deletion ∈ [.retained, .pending, .deleting] ∨
        s.deletion ∈ [.pending, .deleting, .retry]) :
      Step s .cleanupClaim { s with
        status := .deleting, renderStatus := s.renderStatus <|> s.status.terminal?,
        deletion := .deleting }
  | cleanupFinish {s : Lifecycle} (claimed : s.status = .deleting ∧ s.deletion = .deleting) :
      Step s .cleanupFinish { s with status := .deleted, deletion := .deleted }
  | cleanupFail {s : Lifecycle} (claimed : s.status = .deleting ∧ s.deletion = .deleting)
      {outcome : DeletionStatus} (recorded : outcome = .retry ∨ outcome = .failed) :
      Step s .cleanupFail { s with
        status := (s.renderStatus.map TerminalStatus.toJob).getD s.status, deletion := outcome }

/-- The status that a failed deletion restores is never a live one. -/
theorem restored_not_active (render : Option TerminalStatus) {status : JobStatus}
    (deleting : status = .deleting) :
    (render.map TerminalStatus.toJob).getD status ∉ JobStatus.active := by
  cases render with
  | none => simp [deleting]
  | some terminal => exact terminal.toJob_not_active

/-- A job that was just inserted. -/
structure Fresh (s : Lifecycle) : Prop where
  status : s.status = .reserved ∨ s.status = .queued
  renderStatus : s.renderStatus = none
  owner : s.owner = none
  expires : s.expires = none
  cancelRequested : s.cancelRequested = false
  deletion : s.deletion = .retained

end Lifecycle

/-- The lifecycle on its own. -/
def lifecycleMachine : LabeledMachine Lifecycle LifecycleEvent where
  Init := Lifecycle.Fresh
  Step := Lifecycle.Step

end LatexRenderer
