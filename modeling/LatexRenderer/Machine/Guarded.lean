import LatexRenderer.Machine.Session
import Mathlib.Logic.Function.Basic

/-! # Many processes behind a lock

A `Guard` is a machine of lock states that says who holds the lock. `Guarded` is the system in which any number
of parties take their steps in any order: lock steps, and, while a party holds the lock, the steps of its call
on the shared state. A party that loses the lock, by dying or by leaving, drops what is left of its call.

Where the lock is exclusive, every reachable state of that system is one of the `Service` in which calls run one
at a time, so that what is proved of calls one at a time holds under any interleaving.
-/

namespace Machine

variable {L A H K S σ ι ε α D : Type}

/-- A lock: its states and who holds it in them. -/
structure Guard (L A H : Type) where
  machine : LabeledMachine L A
  holds : L → H → Prop

/-- No two parties hold the lock. -/
def Guard.Exclusive (guard : Guard L A H) : Prop :=
  ∀ l, Reachable guard.machine l → ∀ a b, guard.holds l a → guard.holds l b → a = b

/-- The lock, the shared state and the calls of the holders. -/
structure Guarded (L H K S σ ι ε α : Type) where
  lock : L
  shared : σ
  sessions : H → Option (Session K S σ ι ε α)

/-- What happens next. -/
inductive GuardedEvent (A H K S ι ε α D : Type) where
  | lock (event : A)
  | begin (holder : H) (call : K)
  | advance (holder : H) (site : S) (reply : Reply ι)
  | finish (holder : H) (call : K) (result : Except ε α)
  | drift (change : D)

namespace Guard

variable [DecidableEq H] (guard : Guard L A H) (service : Service K S σ ι ε α D)

/-- One event of the guarded system. -/
inductive Step : Guarded L H K S σ ι ε α → GuardedEvent A H K S ι ε α D → Guarded L H K S σ ι ε α → Prop
  | lock (g : Guarded L H K S σ ι ε α) (event : A) (next : L)
      (sessions : H → Option (Session K S σ ι ε α)) (moved : guard.machine.Step g.lock event next)
      (kept : ∀ h, guard.holds next h → sessions h = g.sessions h)
      (dropped : ∀ h, ¬ guard.holds next h → sessions h = none) :
      Step g (.lock event) ⟨next, g.shared, sessions⟩
  | begin (g : Guarded L H K S σ ι ε α) (h : H) (call : K) (holds : guard.holds g.lock h)
      (idle : g.sessions h = none) :
      Step g (.begin h call)
        { g with sessions := Function.update g.sessions h (some ⟨call, g.shared, service.program call⟩) }
  | advance (g : Guarded L H K S σ ι ε α) (h : H) (call : K) (began : σ) (site : S)
      (effect : Reply ι → σ → σ) (next : Reply ι → σ → Process S σ ι ε α) (reply : Reply ι)
      (running : g.sessions h = some ⟨call, began, .perform site effect next⟩) :
      Step g (.advance h site reply)
        { g with
          shared := effect reply g.shared
          sessions := Function.update g.sessions h (some ⟨call, began, next reply g.shared⟩) }
  | returned (g : Guarded L H K S σ ι ε α) (h : H) (call : K) (began : σ) (value : α)
      (running : g.sessions h = some ⟨call, began, .ret value⟩) :
      Step g (.finish h call (.ok value)) { g with sessions := Function.update g.sessions h none }
  | raised (g : Guarded L H K S σ ι ε α) (h : H) (call : K) (began : σ) (error : ε)
      (running : g.sessions h = some ⟨call, began, .raise error⟩) :
      Step g (.finish h call (.error error)) { g with sessions := Function.update g.sessions h none }
  | drift (g : Guarded L H K S σ ι ε α) (t : σ) (change : D) (idle : ∀ h, g.sessions h = none)
      (moved : service.drift change g.shared = some t) : Step g (.drift change) { g with shared := t }

/-- The machine of the guarded system. -/
def system : LabeledMachine (Guarded L H K S σ ι ε α) (GuardedEvent A H K S ι ε α D) where
  Init g := guard.machine.Init g.lock ∧ service.Init g.shared ∧ ∀ h, g.sessions h = none
  Step := guard.Step service

/-- The host that shows what a guarded system does. -/
structure Shows (g : Guarded L H K S σ ι ε α) (host : Host K S σ ι ε α) : Prop where
  shared : host.shared = g.shared
  idle : (∀ h, g.sessions h = none) → host.running = none
  busy : ∀ h session, g.sessions h = some session → host.running = some session

/-- What holds of every reachable state: the calls belong to holders, and the service gets there too. -/
structure Followed (g : Guarded L H K S σ ι ε α) : Prop where
  lock : Reachable guard.machine g.lock
  holders : ∀ h session, g.sessions h = some session → guard.holds g.lock h
  host : ∃ host, Reachable service.machine host ∧ Shows g host

variable {guard service}

/-- The call of one party, when nobody else has one. -/
theorem Shows.update {g : Guarded L H K S σ ι ε α} {shared : σ} {h : H}
    (alone : ∀ other session, g.sessions other = some session → other = h)
    (call : Option (Session K S σ ι ε α)) :
    Shows (⟨g.lock, shared, Function.update g.sessions h call⟩ : Guarded L H K S σ ι ε α) ⟨shared, call⟩ := by
  refine ⟨rfl, fun idle => ?_, fun other session found => ?_⟩
  · simpa using idle h
  · replace found : Function.update g.sessions h call other = some session := found
    by_cases same : other = h
    · rw [same, Function.update_self] at found
      exact found
    · rw [Function.update_of_ne same] at found
      exact absurd (alone other session found) same

/-- One event of the guarded system is one of the service, or none. -/
theorem Followed.step (exclusive : guard.Exclusive) {g t : Guarded L H K S σ ι ε α}
    {event : GuardedEvent A H K S ι ε α D} (followed : guard.Followed service g)
    (taken : guard.Step service g event t) : guard.Followed service t := by
  obtain ⟨lock, holders, ⟨shared, running⟩, reached, rfl, idle, busy⟩ := followed
  have alone : ∀ {h}, guard.holds g.lock h → ∀ other session, g.sessions other = some session → other = h :=
    fun holds other session found => exclusive g.lock lock other _ (holders other session found) holds
  have kept : ∀ {h} {call : Option (Session K S σ ι ε α)}, guard.holds g.lock h → ∀ other session,
      Function.update g.sessions h call other = some session → guard.holds g.lock other := by
    intro h call holds other session found
    by_cases same : other = h
    · exact same ▸ holds
    · rw [Function.update_of_ne same] at found
      exact holders other session found
  cases taken with
  | lock event next sessions moved keeps drops =>
    have later : ∀ h session, sessions h = some session → guard.holds next h := by
      intro h session found
      by_contra lost
      cases (drops h lost).symm.trans found
    refine ⟨lock.step moved, later, ?_⟩
    by_cases gone : ∀ h, sessions h = none
    · cases running with
      | none =>
        exact ⟨⟨g.shared, none⟩, reached, rfl, fun _ => rfl, fun h session found => by
          cases (gone h).symm.trans found⟩
      | some session =>
        exact ⟨⟨g.shared, none⟩, reached.step (.crash _ session), rfl, fun _ => rfl, fun h session found => by
          cases (gone h).symm.trans found⟩
    · refine ⟨⟨g.shared, running⟩, reached, rfl, fun none => absurd none gone, fun h session found => ?_⟩
      exact busy h session (keeps h (later h session found) ▸ found)
  | begin h call holds free =>
    have quiet : ∀ other, g.sessions other = none := by
      intro other
      cases found : g.sessions other with
      | none => rfl
      | some session =>
        rw [alone holds other session found, free] at found
        cases found
    obtain rfl : running = none := idle quiet
    exact ⟨lock, kept holds, _, reached.step (.begin g.shared call), .update (alone holds) _⟩
  | advance h call began site effect next reply found =>
    have holds := holders h _ found
    obtain rfl : running = some _ := busy h _ found
    exact ⟨lock, kept holds, _, reached.step (.advance g.shared call began site effect next reply),
      .update (alone holds) _⟩
  | returned h call began value found =>
    have holds := holders h _ found
    obtain rfl : running = some _ := busy h _ found
    exact ⟨lock, kept holds, _, reached.step (.returned g.shared call began value), .update (alone holds) _⟩
  | raised h call began error found =>
    have holds := holders h _ found
    obtain rfl : running = some _ := busy h _ found
    exact ⟨lock, kept holds, _, reached.step (.raised g.shared call began error), .update (alone holds) _⟩
  | drift t change quiet moved =>
    obtain rfl : running = none := idle quiet
    refine ⟨lock, holders, _, reached.step (.drift g.shared t change moved), rfl, fun _ => rfl, ?_⟩
    intro h session found
    cases (quiet h).symm.trans found

/-- Calls behind an exclusive lock run as if one at a time. -/
theorem followed (exclusive : guard.Exclusive) {g : Guarded L H K S σ ι ε α}
    (reached : Reachable (guard.system service) g) : guard.Followed service g := by
  refine reached.induction ?_ fun _ taken held => held.step exclusive taken
  rintro g ⟨lock, shared, quiet⟩
  have absent : ∀ h session, g.sessions h ≠ some session := fun h session found => by
    cases (quiet h).symm.trans found
  exact ⟨.init lock, fun h session found => absurd found (absent h session), ⟨g.shared, none⟩,
    .init ⟨shared, rfl⟩, rfl, fun _ => rfl, fun h session found => absurd found (absent h session)⟩

section Execution

variable {g : Guarded L H K S σ ι ε α}

/-- The lock may move while no call is running. -/
theorem reachable_lock (reached : Reachable (guard.system service) g) (quiet : ∀ h, g.sessions h = none)
    {events : List A} {next : L} (run : Run guard.machine g.lock events next) :
    Reachable (guard.system service) { g with lock := next } := by
  have moves : ∀ {l next events}, Run guard.machine l events next →
      Reachable (guard.system service) { g with lock := l } →
      Reachable (guard.system service) { g with lock := next } := by
    intro l next events run start
    induction run with
    | nil _ => exact start
    | @cons l mid _ event _ taken _ ih =>
      exact ih (start.step (.lock { g with lock := l } event mid g.sessions taken (fun _ _ => rfl) fun h _ => quiet h))
  exact moves run reached

/-- A holder's call goes on with the given answers. -/
theorem reachable_exec {h : H} {call : K} {began : σ} {p : Process S σ ι ε α} (replies : List (Reply ι))
    (reached : Reachable (guard.system service) g) (running : g.sessions h = some ⟨call, began, p⟩) :
    Reachable (guard.system service)
      { g with
        shared := (Service.exec p g.shared replies).2
        sessions := Function.update g.sessions h (some ⟨call, began, (Service.exec p g.shared replies).1⟩) } := by
  have same : Function.update g.sessions h (some ⟨call, began, p⟩) = g.sessions := by
    rw [← running, Function.update_eq_self]
  induction replies generalizing p g with
  | nil => cases p <;> simpa [Service.exec, same] using reached
  | cons reply rest ih =>
    cases p with
    | ret value => simpa [Service.exec, same] using reached
    | raise error => simpa [Service.exec, same] using reached
    | perform site effect next =>
      have moved := reached.step (.advance g h call began site effect next reply running)
      have later := ih moved (Function.update_self ..) (by simp)
      simpa [Service.exec, Function.update_idem] using later

/-- A party gets the lock, its call takes some steps, and then it loses the lock for good. -/
theorem reachable_killed {h : H} {events : List A} {free held gone : L} {event : A} {shared : σ} (call : K)
    (replies : List (Reply ι)) (reached : Reachable (guard.system service) ⟨free, shared, fun _ => none⟩)
    (run : Run guard.machine free events held) (holds : guard.holds held h)
    (lost : guard.machine.Step held event gone) (dropped : ¬ guard.holds gone h) :
    Reachable (guard.system service)
      ⟨gone, (Service.exec (service.program call) shared replies).2, fun _ => none⟩ := by
  have begun := (reachable_lock reached (fun _ => rfl) run).step (.begin _ h call holds rfl)
  have worked := reachable_exec replies begun (Function.update_self ..)
  refine worked.step (.lock _ event gone (fun _ => none) lost (fun other alive => ?_) fun _ _ => rfl)
  have different : other ≠ h := fun same => dropped (same ▸ alive)
  simp [Function.update_of_ne different]

end Execution

end Guard

end Machine
