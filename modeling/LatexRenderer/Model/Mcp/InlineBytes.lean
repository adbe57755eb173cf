import LatexRenderer.Machine.Run

/-! # The bytes of inline artifacts in flight

Remote MCP keeps the artifacts that it reads into its replies below a limit of bytes. A request that does not fit waits;
a release hands the bytes on to the waiters that fit, the first of them first.
-/

namespace LatexRenderer

open Machine

def maxInlineArtifactBytesInFlight : Nat := 64 * 1024 * 1024

/-- A request for bytes; `id` stands for its promise. -/
structure InlineRequest where
  id : Nat
  bytes : Nat
deriving DecidableEq, Repr

/-- The fields of the service; with them how many requests there were, which were granted and which grants are not
released yet. -/
structure InlineBytes where
  inlineArtifactBytesInFlight : Nat
  inlineArtifactWaiters : List InlineRequest
  requested : Nat
  granted : List InlineRequest
  outstanding : List InlineRequest
deriving DecidableEq, Repr

namespace InlineBytes

/-- Before the first request. -/
def start : InlineBytes := ⟨0, [], 0, [], []⟩

/-- Whether the bytes of a request fit beside those in flight. -/
def fits (s : InlineBytes) (request : InlineRequest) : Bool :=
  decide (s.inlineArtifactBytesInFlight + request.bytes ≤ maxInlineArtifactBytesInFlight)

/-- The promise of a request is resolved with its release. -/
def grant (request : InlineRequest) (s : InlineBytes) : InlineBytes :=
  { s with
    inlineArtifactBytesInFlight := s.inlineArtifactBytesInFlight + request.bytes
    granted := s.granted ++ [request]
    outstanding := s.outstanding ++ [request] }

/-- A new request is granted if it fits, and waits otherwise. -/
def enter (request : InlineRequest) (s : InlineBytes) : InlineBytes :=
  if s.fits request = true then s.grant request
  else { s with inlineArtifactWaiters := s.inlineArtifactWaiters ++ [request] }

def acquireInlineArtifactBytes (bytes : Nat) (s : InlineBytes) : InlineBytes :=
  enter ⟨s.requested, bytes⟩ { s with requested := s.requested + 1 }

/-- The loop of `releaseInlineArtifactBytes`: the first waiter that fits leaves the queue. -/
def handOver : Nat → InlineBytes → InlineBytes
  | 0, s => s
  | turns + 1, s =>
    match s.inlineArtifactWaiters.find? s.fits with
    | none => s
    | some waiter =>
      handOver turns
        (grant waiter { s with inlineArtifactWaiters := s.inlineArtifactWaiters.eraseP s.fits })

/-- `releaseInlineArtifactBytes`, as the release of a grant calls it; every turn of the loop takes a waiter away. -/
def releaseInlineArtifactBytes (request : InlineRequest) (s : InlineBytes) : InlineBytes :=
  handOver s.inlineArtifactWaiters.length
    { s with
      inlineArtifactBytesInFlight := s.inlineArtifactBytesInFlight - request.bytes
      outstanding := s.outstanding.erase request }

end InlineBytes

/-- What the callers do: they ask for bytes, and release what they were granted. -/
inductive InlineBytesEvent where
  | acquire (bytes : Nat)
  | release (request : InlineRequest)
deriving DecidableEq, Repr

/-- A request is for no more than the limit, and a grant is released once. -/
def InlineBytes.step (s : InlineBytes) : InlineBytesEvent → Option InlineBytes
  | .acquire bytes => if bytes ≤ maxInlineArtifactBytesInFlight then some (s.acquireInlineArtifactBytes bytes) else none
  | .release request => if request ∈ s.outstanding then some (s.releaseInlineArtifactBytes request) else none

/-- The service under any sequence of requests and releases. -/
def inlineBytesMachine : LabeledMachine InlineBytes InlineBytesEvent := ofPartial (· = .start) InlineBytes.step

end LatexRenderer
