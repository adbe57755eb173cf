import LatexRenderer.Machine.Guarded
import LatexRenderer.Model.Client.ArtifactTransaction

/-! # Claims of an output

`acquire` keeps the clients of one output directory apart. Every attempt makes a claim directory whose name, with
the process id and a random part, is never used again, and then looks at every other claim: one of a living
process makes it give up, one of a dead process is removed. There is no shared lock that could go stale, and no
time limit that could evict a slow writer.

The attempts of all processes interleave step by step. A directory listing takes time: what is there from its
beginning to its end is in it, whatever else it shows.
-/

namespace LatexRenderer.ArtifactPublication

open Machine

/-- `claim-<pid>-<uuid>`. -/
structure ClaimName where
  pid : Nat
  uuid : Nat
deriving DecidableEq, Repr

/-- A name in the state directory. -/
inductive StateName where
  | claim (name : ClaimName)
  | transaction
  | garbage
  | unknown
deriving DecidableEq, Repr

/-- Where an attempt stands: with its claim made, in its listing (with the claims that are there since its
beginning), among the names it found, about to remove a dead claim, giving up, or done. -/
inductive AcquirePhase where
  | made
  | listing (present : List ClaimName)
  | checking (names : List StateName)
  | reclaiming (claim : ClaimName) (names : List StateName)
  | failing (error : ArtifactError)
  | held
deriving DecidableEq, Repr

/-- The claim directories, the attempts under way, the living processes and the names used so far. -/
structure ClaimSystem where
  claims : List ClaimName := []
  attempts : ClaimName → Option AcquirePhase := fun _ => none
  living : List Nat := []
  issued : List ClaimName := []

/-- What may happen: a process starts or dies; an attempt takes its next step, or the file system fails it. -/
inductive ClaimEvent where
  | spawn (pid : Nat)
  | die (pid : Nat)
  | make (name : ClaimName)
  | beginList (name : ClaimName)
  | endList (name : ClaimName) (names : List StateName)
  | check (name : ClaimName)
  | reclaim (name : ClaimName)
  | hold (name : ClaimName)
  | fail (name : ClaimName)
  | leave (name : ClaimName) (removed : Bool)
deriving DecidableEq, Repr

/-- A claim that goes away need not be in a listing that is under way. -/
def AcquirePhase.vanish (claim : ClaimName) : AcquirePhase → AcquirePhase
  | .listing present => .listing (present.filter (· ≠ claim))
  | phase => phase

namespace ClaimSystem

/-- `rmdir` of a claim. -/
def remove (s : ClaimSystem) (claim : ClaimName) : ClaimSystem :=
  { s with
    claims := s.claims.filter (· ≠ claim)
    attempts := fun name => (s.attempts name).map (AcquirePhase.vanish claim) }

/-- An attempt goes on. -/
def advance (s : ClaimSystem) (name : ClaimName) (phase : AcquirePhase) : ClaimSystem :=
  { s with attempts := Function.update s.attempts name (some phase) }

/-- One turn of the loop over the names. -/
def inspectName (s : ClaimSystem) (name : ClaimName) (found : StateName) (rest : List StateName) : AcquirePhase :=
  match found with
  | .claim other =>
    if other = name then .checking rest
    else if other ∉ s.claims then .checking rest
    else if 2147483647 < other.pid then
      .failing (.unsafeTransaction "Invalid artifact transaction owner")
    else if other.pid ∈ s.living then .failing .outputBusy
    else .reclaiming other rest
  | .transaction => .checking rest
  | .garbage => .checking rest
  | .unknown => .failing (.unsafeTransaction "Unrecognized artifact transaction record")

/-- The names that `readdir` gives. -/
def foundNames (names : List StateName) : AcquirePhase :=
  if 256 < names.length then .failing (.unsafeTransaction "Too many artifact transaction records")
  else .checking names

/-- One event; `none` where it cannot happen. -/
def step (s : ClaimSystem) : ClaimEvent → Option ClaimSystem
  | .spawn pid => if pid ∈ s.living then none else some { s with living := pid :: s.living }
  | .die pid =>
    some { s with
      living := s.living.filter (· ≠ pid)
      attempts := fun name => if name.pid = pid then none else s.attempts name }
  | .make name =>
    if name.pid ∈ s.living ∧ name ∉ s.issued then
      some { s with
        claims := name :: s.claims
        attempts := Function.update s.attempts name (some .made)
        issued := name :: s.issued }
    else none
  | .beginList name =>
    match s.attempts name with
    | some .made => some (s.advance name (.listing s.claims))
    | _ => none
  | .endList name names =>
    match s.attempts name with
    | some (.listing present) =>
      if present.all (fun claim => names.contains (.claim claim)) then some (s.advance name (foundNames names)) else none
    | _ => none
  | .check name =>
    match s.attempts name with
    | some (.checking (found :: rest)) => some (s.advance name (s.inspectName name found rest))
    | _ => none
  | .reclaim name =>
    match s.attempts name with
    | some (.reclaiming claim rest) => some ((s.remove claim).advance name (.checking rest))
    | _ => none
  | .hold name =>
    match s.attempts name with
    | some (.checking []) => some (s.advance name .held)
    | _ => none
  | .fail name =>
    match s.attempts name with
    | some .held => none
    | some _ => some (s.advance name (.failing .fileSystem))
    | none => none
  | .leave name removed =>
    let left (t : ClaimSystem) : ClaimSystem := { t with attempts := Function.update t.attempts name none }
    match s.attempts name with
    | some (.failing _) => some (left (if removed then s.remove name else s))
    | some .held => some (left (if removed then s.remove name else s))
    | _ => none

end ClaimSystem

/-- The machine of the claims, from a state directory without attempts. -/
def claimMachine : LabeledMachine ClaimSystem ClaimEvent :=
  ofPartial (fun s => (∀ name, s.attempts name = none) ∧ ∀ name ∈ s.claims, name ∈ s.issued) ClaimSystem.step

/-- The lock of an output: `acquire` has returned and `release` has not run. -/
def outputClaims : Guard ClaimSystem ClaimEvent ClaimName where
  machine := claimMachine
  holds s name := s.attempts name = some .held

end LatexRenderer.ArtifactPublication
