import Mathlib.Logic.Function.Basic
import LatexRenderer.Machine.Octets
import LatexRenderer.Machine.Table
import LatexRenderer.Model.Deploy.LanAddress

/-! # Prefetching TeX Live packages

A coordinator keeps the tasks that are held for the installer, a byte reservation for them and one task for each
worker; it either waits for a request or for results of its workers, or, inside a request, for results only. Workers
take a task from their socket, write what they download to a part file, and rename the file when it is verified.
-/

namespace LatexRenderer

open Machine

/-- An entry of the plan. An unknown size is zero. -/
structure PlanEntry where
  url : Text
  size : Nat
  sha : Text
deriving DecidableEq

/-- What a coordinator is made with, and the digest that workers compare. -/
structure Prefetch where
  plan : List PlanEntry
  budget : Nat
  window : Nat
  workers : Nat
  sha512 : Octets → Text

inductive PrefetchStatus where
  | running
  | ready
  | failed
deriving DecidableEq

/-- A task, whose file is named by its index in the plan. -/
structure PrefetchTask where
  index : Nat
  entry : PlanEntry
  status : PrefetchStatus
deriving DecidableEq

/-- A worker: the task the coordinator has it down for, the two directions of its socket, and the task its process is
at, with whether this is the second attempt. -/
structure PrefetchWorker where
  task : Option Nat
  inbox : List PrefetchTask
  attempt : Option (PrefetchTask × Bool)
  outbox : List Bool
deriving DecidableEq

/-- A worker that was just started. -/
def PrefetchWorker.new : PrefetchWorker where
  task := none
  inbox := []
  attempt := none
  outbox := []

/-- Where the coordinator is: in its `select`, in the loop of a `download`, or at an end. -/
inductive PrefetchPhase where
  | select
  | waiting (index : Nat) (url dest : Text)
  | stopped
deriving DecidableEq

/-- What became of the file of a task. -/
inductive PrefetchRecord where
  | verified (index : Nat)
  | discarded (index : Nat)
  | handedOut (index : Nat) (dest : Text)
deriving DecidableEq

/-- The task a record is about. -/
def PrefetchRecord.index : PrefetchRecord → Nat
  | .verified index => index
  | .discarded index => index
  | .handedOut index _ => index

/-- The answer to a request: 1, 0 or undefined. -/
structure PrefetchAnswer where
  url : Text
  dest : Text
  result : Option Bool
deriving DecidableEq

/-- The coordinator, its workers and the files. The answers and the records are kept for the specification, newest
first. -/
structure PrefetchState where
  tasks : List PrefetchTask
  reserved : Int
  workers : List PrefetchWorker
  phase : PrefetchPhase
  cursor : Option Nat
  files : Nat → Option Octets
  parts : Nat → Option Octets
  destinations : Text → Option Octets
  answers : List PrefetchAnswer
  log : List PrefetchRecord

/-- `new` and `start_workers`. -/
def Prefetch.new (p : Prefetch) : PrefetchState where
  tasks := []
  reserved := 0
  workers := List.replicate p.workers .new
  phase := .select
  cursor := none
  files _ := none
  parts _ := none
  destinations _ := none
  answers := []
  log := []

/-- `index`: the last entry with the URL. -/
def Prefetch.index? (p : Prefetch) (url : Text) : Option Nat :=
  (List.range p.plan.length).reverse.find? fun i => decide ((p.plan[i]?).map (·.url) = some url)

/-- The bytes are those that an entry of the plan promises. -/
def Prefetch.Matches (p : Prefetch) (entry : PlanEntry) (bytes : Octets) : Prop :=
  bytes.length = entry.size ∧ p.sha512 bytes = entry.sha

instance (p : Prefetch) (entry : PlanEntry) (bytes : Octets) : Decidable (p.Matches entry bytes) :=
  inferInstanceAs (Decidable (_ ∧ _))

/-- The condition of `discard_before` for a task to stay. -/
def PrefetchTask.Stays (index : Nat) (task : PrefetchTask) : Prop := index ≤ task.index ∨ task.status = .running

instance (index : Nat) (task : PrefetchTask) : Decidable (task.Stays index) :=
  inferInstanceAs (Decidable (_ ∨ _))

def discardBefore (index : Nat) (s : PrefetchState) : PrefetchState :=
  let old := s.tasks.filter fun task => !decide (task.Stays index)
  { s with
    tasks := s.tasks.filter fun task => decide (task.Stays index)
    reserved := s.reserved - (total (·.entry.size) old : Nat)
    files := fun i => if i ∈ old.map (·.index) then none else s.files i
    log := old.map (.discarded ·.index) ++ s.log }

/-- The first idle worker gets the task, in its table entry and on its socket. -/
def handTask (task : PrefetchTask) : List PrefetchWorker → List PrefetchWorker
  | [] => []
  | worker :: rest =>
    if worker.task = none then { worker with task := some task.index, inbox := worker.inbox ++ [task] } :: rest
    else worker :: handTask task rest

/-- The body of the loop of `fill`, once all its tests have passed. -/
def startTask (task : PrefetchTask) (s : PrefetchState) : PrefetchState :=
  { s with
    tasks := task :: s.tasks
    reserved := s.reserved + (task.entry.size : Nat)
    workers := handTask task s.workers }

/-- The loop of `fill`. -/
def fillLoop (p : Prefetch) : List Nat → PrefetchState → PrefetchState
  | [], s => s
  | i :: rest, s =>
    if ∀ worker ∈ s.workers, worker.task ≠ none then s
    else if p.window ≤ s.tasks.length then s
    else if i ∈ s.tasks.map (·.index) then fillLoop p rest s
    else
      match p.plan[i]? with
      | none => s
      | some entry =>
        if entry.size = 0 ∨ p.budget < entry.size then fillLoop p rest s
        else if (p.budget : Int) < s.reserved + (entry.size : Nat) then s
        else fillLoop p rest (startTask { index := i, entry, status := .running } s)

def fill (p : Prefetch) (index : Nat) (s : PrefetchState) : PrefetchState :=
  fillLoop p (List.range' index (min (index + p.window) p.plan.length - index)) s

/-- The status of a task becomes known. -/
def PrefetchTask.settle (i : Nat) (ok : Bool) (task : PrefetchTask) : PrefetchTask :=
  if task.index = i then { task with status := if ok then .ready else .failed } else task

/-- The loop of `receive` for one socket. -/
def receiveFrom (k : Nat) (s : PrefetchState) : Option PrefetchState :=
  match s.workers[k]? with
  | some ⟨some i, inbox, attempt, ok :: outbox⟩ =>
    some { s with
      workers := s.workers.set k ⟨none, inbox, attempt, outbox⟩
      tasks := s.tasks.map (·.settle i ok) }
  | _ => none

/-- `receive`, with the sockets that are ready. -/
def receive : List Nat → PrefetchState → Option PrefetchState
  | [], s => some s
  | k :: rest, s => (receiveFrom k s).bind (receive rest)

/-- The rest of `coordinate` after a request: the answer, and the buffer from the next object on. -/
def respond (p : Prefetch) (index : Nat) (answer : PrefetchAnswer) (s : PrefetchState) : PrefetchState :=
  fill p (index + 1) (discardBefore (index + 1)
    { s with answers := answer :: s.answers, phase := .select, cursor := some (index + 1) })

/-- What `rename` moves: the file of a task that is ready, when it succeeds. -/
def movedFile (renames : Bool) (task : PrefetchTask) (s : PrefetchState) : Option Octets :=
  if task.status = .ready ∧ renames = true then s.files task.index else none

/-- The task and its reservation go away, and its file, to the destination or altogether. -/
def removeTask (dest : Text) (moved : Option Octets) (task : PrefetchTask) (s : PrefetchState) : PrefetchState :=
  { s with
    tasks := s.tasks.filter fun other => decide (other.index ≠ task.index)
    reserved := s.reserved - (task.entry.size : Nat)
    files := Function.update s.files task.index none
    destinations := if moved.isSome then Function.update s.destinations dest moved else s.destinations
    log := (if moved.isSome then .handedOut task.index dest else .discarded task.index) :: s.log }

/-- `download` after its loop. -/
def handOut (p : Prefetch) (url dest : Text) (renames : Bool) (task : PrefetchTask) (s : PrefetchState) :
    PrefetchState :=
  let moved := movedFile renames task s
  let s := removeTask dest moved task s
  let s := if task.index + 1 < p.plan.length then fill p (task.index + 1) s else s
  respond p task.index { url, dest, result := some moved.isSome } s

/-- `download` from the test of its task on: there is none, it is still running, or it is settled. -/
def proceed (p : Prefetch) (index : Nat) (url dest : Text) (renames : Bool) (s : PrefetchState) : PrefetchState :=
  match s.tasks.find? fun task => decide (task.index = index) with
  | none => respond p index { url, dest, result := none } s
  | some task =>
    if task.status = .running then { s with phase := .waiting index url dest }
    else handOut p url dest renames task s

/-- An attempt of a worker fails; its part file is removed, and written anew when there is another attempt. -/
def failAttempt (k : Nat) (worker : PrefetchWorker) (task : PrefetchTask) (second : Bool) (s : PrefetchState) :
    PrefetchState :=
  if second then
    { s with
      workers := s.workers.set k { worker with attempt := none, outbox := worker.outbox ++ [false] }
      parts := Function.update s.parts task.index none }
  else
    { s with
      workers := s.workers.set k { worker with attempt := some (task, true) }
      parts := Function.update s.parts task.index (some []) }

/-- What a worker does at the task it is at. -/
inductive WorkerAction where
  | chunk (bytes : Octets)
  | fails
  | verifies (late : Bool)

/-- One action of a worker. A deadline that comes after the file was renamed fails the attempt. -/
def workerAction (p : Prefetch) (k : Nat) (worker : PrefetchWorker) (task : PrefetchTask) (second : Bool)
    (s : PrefetchState) : WorkerAction → PrefetchState
  | .chunk bytes =>
    if ((s.parts task.index).getD [] ++ bytes).length ≤ task.entry.size then
      { s with parts := Function.update s.parts task.index (some ((s.parts task.index).getD [] ++ bytes)) }
    else failAttempt k worker task second s
  | .fails => failAttempt k worker task second s
  | .verifies late =>
    if p.Matches task.entry ((s.parts task.index).getD []) then
      let s := { s with
        files := Function.update s.files task.index (some ((s.parts task.index).getD []))
        log := .verified task.index :: s.log }
      if late then failAttempt k worker task second s
      else
        { s with
          workers := s.workers.set k { worker with attempt := none, outbox := worker.outbox ++ [true] }
          parts := Function.update s.parts task.index none }
    else failAttempt k worker task second s

/-- What happens: the installer asks, results arrive, the coordinator ends, or a worker takes or goes on with a task. -/
inductive PrefetchEvent where
  | request (url dest : Text) (renames : Bool)
  | results (ready : List Nat) (renames : Bool)
  | stop
  | take (k : Nat)
  | work (k : Nat) (action : WorkerAction)

/-- A step of the coordinator or of a worker. -/
def prefetchStep (p : Prefetch) (s : PrefetchState) : PrefetchEvent → Option PrefetchState
  | .request url dest renames =>
    if s.phase = .select then
      match p.index? url with
      | none => some { s with answers := { url, dest, result := none } :: s.answers }
      | some index =>
        match p.plan[index]? with
        | none => none
        | some entry =>
          if dest = "|".toList ∨ entry.size = 0 ∨ p.budget < entry.size then
            some { s with answers := { url, dest, result := none } :: s.answers }
          else some (proceed p index url dest renames (fill p index (discardBefore index s)))
    else none
  | .results ready renames =>
    if ready = [] then none
    else
      match s.phase with
      | .select => (receive ready s).map fun s =>
        match s.cursor with
        | some cursor => fill p cursor (discardBefore cursor s)
        | none => s
      | .waiting index url dest => (receive ready s).map fun s => proceed p index url dest renames (fill p index s)
      | .stopped => none
  | .stop => some { s with phase := .stopped }
  | .take k =>
    match s.workers[k]? with
    | some ⟨holds, task :: inbox, none, outbox⟩ =>
      some { s with
        workers := s.workers.set k ⟨holds, inbox, some (task, false), outbox⟩
        parts := Function.update s.parts task.index (some []) }
    | _ => none
  | .work k action =>
    match s.workers[k]? with
    | some worker => worker.attempt.map fun attempt => workerAction p k worker attempt.1 attempt.2 s action
    | none => none

/-- The prefetcher. -/
def prefetchMachine (p : Prefetch) : LabeledMachine PrefetchState PrefetchEvent :=
  ofPartial (fun s => s = p.new) (prefetchStep p)

end LatexRenderer
