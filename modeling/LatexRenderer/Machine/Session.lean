import LatexRenderer.Machine.Process
import LatexRenderer.Machine.Run

/-! # One process at a time over a lasting state

A `Service` is a set of calls, each with the process that serves it, over a state that outlives the
processes. A lock keeps two calls apart: a call begins only while none is running. Every step of the
running process is a step of the machine, its process may be killed between any two of them, and
between calls the outside may change the state in the ways that `drift` lists.

`Service.governed` is the rule that turns promises about single calls into statements about whole
runs: when every call, begun in a state with the invariant, promises to keep it at every step, then
in every reachable state the rest of the running process still does.
-/

namespace Machine

variable {K S σ ι ε α D : Type}

/-- A running call: which one, the state it began in and what is left of its process. -/
structure Session (K S σ ι ε α : Type) where
  call : K
  began : σ
  rest : Process S σ ι ε α

/-- The lasting state and the call that runs over it. -/
structure Host (K S σ ι ε α : Type) where
  shared : σ
  running : Option (Session K S σ ι ε α) := none

/-- What happens next. -/
inductive HostEvent (K S ι ε α D : Type) where
  | begin (call : K)
  | advance (site : S) (reply : Reply ι)
  | finish (call : K) (result : Except ε α)
  | crash
  | drift (change : D)

/-- The processes of the calls and the changes the outside may make between them. -/
structure Service (K S σ ι ε α D : Type) where
  Init : σ → Prop
  program : K → Process S σ ι ε α
  drift : D → σ → Option σ

namespace Service

variable (service : Service K S σ ι ε α D)

/-- One event of a service. -/
inductive Step : Host K S σ ι ε α → HostEvent K S ι ε α D → Host K S σ ι ε α → Prop
  | begin (s : σ) (call : K) : Step ⟨s, none⟩ (.begin call) ⟨s, some ⟨call, s, service.program call⟩⟩
  | advance (s : σ) (call : K) (began : σ) (site : S) (effect : Reply ι → σ → σ)
      (next : Reply ι → σ → Process S σ ι ε α) (reply : Reply ι) :
      Step ⟨s, some ⟨call, began, .perform site effect next⟩⟩ (.advance site reply)
        ⟨effect reply s, some ⟨call, began, next reply s⟩⟩
  | returned (s : σ) (call : K) (began : σ) (value : α) :
      Step ⟨s, some ⟨call, began, .ret value⟩⟩ (.finish call (.ok value)) ⟨s, none⟩
  | raised (s : σ) (call : K) (began : σ) (error : ε) :
      Step ⟨s, some ⟨call, began, .raise error⟩⟩ (.finish call (.error error)) ⟨s, none⟩
  | crash (s : σ) (session : Session K S σ ι ε α) : Step ⟨s, some session⟩ .crash ⟨s, none⟩
  | drift (s t : σ) (change : D) (moved : service.drift change s = some t) :
      Step ⟨s, none⟩ (.drift change) ⟨t, none⟩

/-- The machine of a service. -/
def machine : LabeledMachine (Host K S σ ι ε α) (HostEvent K S ι ε α D) where
  Init host := service.Init host.shared ∧ host.running = none
  Step := service.Step

/-- An event answers a step only within `allowed`. -/
def Allows (allowed : S → Reply ι → Prop) : HostEvent K S ι ε α D → Prop
  | .advance site reply => allowed site reply
  | _ => True

/-- What the calls of a service promise: the invariant between the steps, at each site what the site
needs, and at their end what the call was made for. -/
structure Promise (S K σ ε α : Type) where
  Inv : σ → Prop
  At : S → σ → Prop
  Returns : K → σ → α → σ → Prop
  Raises : K → σ → ε → σ → Prop
  at_inv : ∀ {site s}, At site s → Inv s
  returns_inv : ∀ {call began value s}, Returns call began value s → Inv s
  raises_inv : ∀ {call began error s}, Raises call began error s → Inv s

/-- The rest of a running process still keeps its promise; between calls the invariant holds. -/
def Governed (allowed : S → Reply ι → Prop) (promise : Promise S K σ ε α)
    (host : Host K S σ ι ε α) : Prop :=
  match host.running with
  | none => promise.Inv host.shared
  | some session =>
    session.rest.wp allowed (promise.Returns session.call session.began)
      (promise.Raises session.call session.began) promise.At host.shared

variable {service} {allowed : S → Reply ι → Prop} {promise : Promise S K σ ε α}

theorem Governed.inv {host : Host K S σ ι ε α} (governed : Governed allowed promise host) :
    promise.Inv host.shared := by
  obtain ⟨s, running⟩ := host
  cases running with
  | none => exact governed
  | some session =>
    obtain ⟨call, began, rest⟩ := session
    cases rest with
    | ret value => exact promise.returns_inv governed
    | raise error => exact promise.raises_inv governed
    | perform site effect next => exact promise.at_inv governed.1

/-- What a step of a running process meets at its site. -/
theorem Governed.at {host target : Host K S σ ι ε α} {site : S} {reply : Reply ι}
    (governed : Governed allowed promise host)
    (taken : service.Step host (.advance site reply) target) : promise.At site host.shared := by
  cases taken
  exact governed.1

/-- What a call that returns has achieved. -/
theorem Governed.returned {host target : Host K S σ ι ε α} {call : K} {value : α}
    (governed : Governed allowed promise host)
    (taken : service.Step host (.finish call (.ok value)) target) :
    ∃ session, host.running = some session ∧ session.call = call ∧
      promise.Returns call session.began value host.shared := by
  cases taken with
  | returned s call began value => exact ⟨_, rfl, rfl, governed⟩

/-- What a call that fails leaves. -/
theorem Governed.raised {host target : Host K S σ ι ε α} {call : K} {error : ε}
    (governed : Governed allowed promise host)
    (taken : service.Step host (.finish call (.error error)) target) :
    ∃ session, host.running = some session ∧ session.call = call ∧
      promise.Raises call session.began error host.shared := by
  cases taken with
  | raised s call began error => exact ⟨_, rfl, rfl, governed⟩

/-- One event keeps the promise of what is running. -/
theorem Governed.step {host target : Host K S σ ι ε α} {event : HostEvent K S ι ε α D}
    (calls : ∀ call s, promise.Inv s →
      (service.program call).wp allowed (promise.Returns call s) (promise.Raises call s) promise.At s)
    (drifts : ∀ change s t, promise.Inv s → service.drift change s = some t → promise.Inv t)
    (governed : Governed allowed promise host) (allows : Allows allowed event)
    (taken : service.Step host event target) : Governed allowed promise target := by
  cases taken with
  | begin s call => exact calls call s governed
  | advance s call began site effect next reply => exact governed.2 reply allows
  | returned s call began value => exact promise.returns_inv governed
  | raised s call began error => exact promise.raises_inv governed
  | crash s session =>
    have kept : promise.Inv s := governed.inv
    exact kept
  | drift s t change moved => exact drifts change s t governed moved

/-- The rule of a service: promises of single calls govern every run whose answers are allowed. -/
theorem governed
    (starts : ∀ s, service.Init s → promise.Inv s)
    (calls : ∀ call s, promise.Inv s →
      (service.program call).wp allowed (promise.Returns call s) (promise.Raises call s) promise.At s)
    (drifts : ∀ change s t, promise.Inv s → service.drift change s = some t → promise.Inv t)
    {origin host : Host K S σ ι ε α} {events : List (HostEvent K S ι ε α D)}
    (init : service.machine.Init origin) (run : Run service.machine origin events host)
    (allows : ∀ event ∈ events, Allows allowed event) : Governed allowed promise host := by
  refine run.preserves (P := Governed allowed promise) ?_ ?_
  · intro a event b member taken held
    exact held.step calls drifts (allows event member) taken
  · obtain ⟨started, idle⟩ := init
    obtain ⟨s, running⟩ := origin
    cases idle
    exact starts s started

section Steps

variable {G : K → S → σ → σ → Prop}

/-- What the program of each call says about single steps holds of the steps of every run. -/
theorem steps_session (programs : ∀ call, (service.program call).Steps (G call))
    {origin host target : Host K S σ ι ε α} {events : List (HostEvent K S ι ε α D)} {site : S}
    {reply : Reply ι} (init : service.machine.Init origin)
    (run : Run service.machine origin events host)
    (taken : service.Step host (.advance site reply) target) :
    ∃ session, host.running = some session ∧ G session.call site host.shared target.shared := by
  have rests : ∀ session, host.running = some session → session.rest.Steps (G session.call) := by
    refine run.preserves
      (P := fun h => ∀ session, h.running = some session → session.rest.Steps (G session.call)) ?_ ?_
    · intro a event b _ moved held session running
      cases moved with
      | begin s call =>
        cases running
        exact programs call
      | advance s call began site effect next reply =>
        cases running
        exact (held _ rfl).2 reply s
      | returned | raised | crash | drift => cases running
    · intro session running
      rw [init.2] at running
      cases running
  cases taken with
  | advance s call began site effect next reply => exact ⟨_, rfl, (rests _ rfl).1 reply s⟩

/-- What the programs of all calls say alike. -/
theorem steps_advance {G : S → σ → σ → Prop} (programs : ∀ call, (service.program call).Steps G)
    {origin host target : Host K S σ ι ε α} {events : List (HostEvent K S ι ε α D)} {site : S}
    {reply : Reply ι} (init : service.machine.Init origin)
    (run : Run service.machine origin events host)
    (taken : service.Step host (.advance site reply) target) : G site host.shared target.shared := by
  obtain ⟨_, _, held⟩ := steps_session (G := fun _ => G) programs init run taken
  exact held

end Steps

section Execution

/-- Where a process gets to on a list of answers, with the events it takes. -/
def exec : Process S σ ι ε α → σ → List (Reply ι) → Process S σ ι ε α × σ
  | .perform _ effect next, s, reply :: rest => exec (next reply s) (effect reply s) rest
  | p, s, _ => (p, s)

/-- The events of an execution. -/
def trace : Process S σ ι ε α → σ → List (Reply ι) → List (HostEvent K S ι ε α D)
  | .perform site effect next, s, reply :: rest =>
    .advance site reply :: trace (next reply s) (effect reply s) rest
  | _, _, _ => []

/-- An execution is a run of the machine. -/
theorem run_exec (service : Service K S σ ι ε α D) (p : Process S σ ι ε α) (s : σ) (call : K) (began : σ) (replies : List (Reply ι)) :
    Run service.machine ⟨s, some ⟨call, began, p⟩⟩ (trace p s replies)
      ⟨(exec p s replies).2, some ⟨call, began, (exec p s replies).1⟩⟩ := by
  induction replies generalizing p s with
  | nil => cases p <;> exact .nil _
  | cons reply rest ih =>
    cases p with
    | ret value => exact .nil _
    | raise error => exact .nil _
    | perform site effect next =>
      exact .cons (.advance s call began site effect next reply) (ih (next reply s) (effect reply s))

/-- A whole call: it begins, its process runs to a result and the result is reported. -/
theorem run_call (service : Service K S σ ι ε α D) {s t : σ} {call : K} {result : Except ε α} {replies : List (Reply ι)}
    (ends : exec (service.program call) s replies = (Process.ofExcept result, t)) :
    Run service.machine ⟨s, none⟩
      (.begin call :: (trace (service.program call) s replies ++ [.finish call result])) ⟨t, none⟩ := by
  have ran := run_exec service (service.program call) s call s replies
  rw [ends] at ran
  refine .cons (.begin s call) (ran.append (.single ?_))
  cases result with
  | ok value => exact .returned t call s value
  | error error => exact .raised t call s error

/-- A call that is killed after some of its steps. -/
theorem run_killed (service : Service K S σ ι ε α D) (s : σ) (call : K) (replies : List (Reply ι)) :
    Run service.machine ⟨s, none⟩
      (.begin call :: (trace (service.program call) s replies ++ [.crash]))
      ⟨(exec (service.program call) s replies).2, none⟩ :=
  .cons (.begin s call) ((run_exec service (service.program call) s call s replies).append
    (.single (.crash _ _)))

/-- Answers that every step may be given make up an allowed run. -/
theorem allows_trace {allowed : S → Reply ι → Prop} (p : Process S σ ι ε α) (s : σ) {replies : List (Reply ι)}
    (fits : ∀ reply ∈ replies, ∀ site, allowed site reply) :
    ∀ event ∈ (trace p s replies : List (HostEvent K S ι ε α D)), Allows allowed event := by
  induction replies generalizing p s with
  | nil => cases p <;> simp [trace]
  | cons reply rest ih =>
    cases p with
    | ret value => simp [trace]
    | raise error => simp [trace]
    | perform site effect next =>
      intro event member
      rcases List.mem_cons.mp member with rfl | member
      · exact fits reply List.mem_cons_self site
      · exact ih (next reply s) (effect reply s)
          (fun other listed => fits other (List.mem_cons_of_mem _ listed)) event member

/-- A process that returns keeps what it promises, whatever was answered. -/
theorem exec_returns {Q : α → σ → Prop} {E : ε → σ → Prop} {C : S → σ → Prop} {p : Process S σ ι ε α}
    {s t : σ} {replies : List (Reply ι)} {value : α} (promise : p.wp Process.anyAnswer Q E C s)
    (ends : exec p s replies = (.ret value, t)) : Q value t := by
  induction replies generalizing p s with
  | nil =>
    cases p with
    | ret other =>
      cases ends
      exact promise
    | raise error => cases ends
    | perform site effect next => cases ends
  | cons reply rest ih =>
    cases p with
    | ret other =>
      cases ends
      exact promise
    | raise error => cases ends
    | perform site effect next => exact ih (promise.2 reply trivial) ends

/-- A process that fails fails as it promises, as long as the answers are allowed. -/
theorem exec_raises {allowed : S → Reply ι → Prop} {Q : α → σ → Prop} {E : ε → σ → Prop} {C : S → σ → Prop}
    {p : Process S σ ι ε α} {s t : σ} {replies : List (Reply ι)} {error : ε}
    (promise : p.wp allowed Q E C s)
    (allows : ∀ event ∈ (trace p s replies : List (HostEvent K S ι ε α D)), Allows allowed event)
    (ends : exec p s replies = (.raise error, t)) : E error t := by
  induction replies generalizing p s with
  | nil =>
    cases p with
    | ret value => cases ends
    | raise other =>
      cases ends
      exact promise
    | perform site effect next => cases ends
  | cons reply rest ih =>
    cases p with
    | ret value => cases ends
    | raise other =>
      cases ends
      exact promise
    | perform site effect next =>
      have answered : allowed site reply := allows _ List.mem_cons_self
      exact ih (promise.2 reply answered) (fun event member => allows event (List.mem_cons_of_mem _ member)) ends

/-- A process that completes is one that returns. -/
theorem exists_exec [Inhabited ι] {Q : α → σ → Prop} (p : Process S σ ι ε α) (s : σ)
    (completes : p.Completes Q s) : ∃ replies value t, exec p s replies = (.ret value, t) ∧ Q value t := by
  induction p generalizing s with
  | ret value => exact ⟨[], value, s, rfl, completes⟩
  | raise error => exact completes.elim
  | perform site effect next ih =>
    obtain ⟨replies, value, t, ran, held⟩ :=
      ih (.done default) s (effect (.done default) s) (completes.2 _ ⟨default, rfl⟩)
    exact ⟨.done default :: replies, value, t, ran, held⟩

end Execution

end Service

end Machine
