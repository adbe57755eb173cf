import LatexRenderer.Machine.Session

/-! # Services with critical stretches

A process may pass through states that nobody else should see, and some answers may leave it in one of
them. A run is *careful* when no process is killed before a step where that is ruled out, and when every
answer is permitted in the state it is given in. `careful` is the assertion for a single process, like `wp`
with such answers, and `Service.careful_run` the rule for runs: the invariant has to hold where a process may
be killed, and where it ends.
-/

namespace Machine

variable {K S σ ι ε α β D : Type}

namespace Process

/-- Whatever is answered within what the state permits, the process visits a step only in a state that
satisfies `C`, returns only in one that satisfies `Q` and fails only in one that satisfies `E`. -/
def careful (permits : S → σ → Reply ι → Prop) (Q : α → σ → Prop) (E : ε → σ → Prop) (C : S → σ → Prop) :
    Process S σ ι ε α → σ → Prop
  | .ret value, s => Q value s
  | .raise error, s => E error s
  | .perform site effect next, s =>
    C site s ∧ ∀ reply, permits site s reply → careful permits Q E C (next reply s) (effect reply s)

variable {permits : S → σ → Reply ι → Prop} {Q Q' : α → σ → Prop} {E E' : ε → σ → Prop} {C C' : S → σ → Prop}
  {s : σ}

theorem careful.mono {p : Process S σ ι ε α} (strong : p.careful permits Q E C s)
    (returns : ∀ value t, Q value t → Q' value t) (raises : ∀ error t, E error t → E' error t) :
    p.careful permits Q' E' C s := by
  induction p generalizing s with
  | ret value => exact returns value s strong
  | raise error => exact raises error s strong
  | perform site effect next ih =>
    exact ⟨strong.1, fun reply answered => ih reply s (strong.2 reply answered)⟩

/-- Sequencing. -/
theorem careful.bind {R : β → σ → Prop} {p : Process S σ ι ε α} {f : α → Process S σ ι ε β}
    (first : p.careful permits (fun value => (f value).careful permits R E C) E C s) :
    (p >>= f).careful permits R E C s := by
  show (p.bind f).careful permits R E C s
  induction p generalizing s with
  | ret value => exact first
  | raise error => exact first
  | perform site effect next ih => exact ⟨first.1, fun reply answered => ih reply s (first.2 reply answered)⟩

/-- Error handling. -/
theorem careful.handle {p : Process S σ ι ε α} {h : ε → Process S σ ι ε α}
    (body : p.careful permits Q (fun error => (h error).careful permits Q E C) C s) :
    (tryCatch p h).careful permits Q E C s := by
  show (p.handle h).careful permits Q E C s
  induction p generalizing s with
  | ret value => exact body
  | raise error => exact body
  | perform site effect next ih => exact ⟨body.1, fun reply answered => ih reply s (body.2 reply answered)⟩

theorem careful.outcome {R : Except ε α → σ → Prop} {p : Process S σ ι ε α}
    (both : p.careful permits (fun value => R (.ok value)) (fun error => R (.error error)) C s) :
    (outcome p).careful permits R E C s :=
  .handle (.bind both)

/-- A process that keeps its promises whatever is answered. -/
theorem careful.of_wp {p : Process S σ ι ε α} (promise : p.wp anyAnswer Q E C s) :
    p.careful permits Q E C s := by
  induction p generalizing s with
  | ret value => exact promise
  | raise error => exact promise
  | perform site effect next ih =>
    exact ⟨promise.1, fun reply _ => ih reply s (promise.2 reply trivial)⟩

/-- One step: it may refuse, and it may move the state and tell so or not. -/
theorem careful.act [Fault ε] {R : β → σ → Prop} {site : S} {f : ι → σ → Except ε (β × σ)} (visit : C site s)
    (refused : permits site s .refused → E Fault.fault s)
    (failed : ∀ answer error, f answer s = .error error → E error s)
    (done : ∀ answer value t, f answer s = .ok (value, t) → permits site s (.done answer) → R value t)
    (lost : ∀ answer value t, f answer s = .ok (value, t) → permits site s (.lost answer) → E Fault.fault t) :
    (act site f : Process S σ ι ε β).careful permits R E C s := by
  refine ⟨visit, fun reply answered => ?_⟩
  cases reply with
  | refused => exact refused answered
  | done answer =>
    cases made : f answer s with
    | error error => simpa [Reply.apply, made, ofExcept, careful] using failed answer error made
    | ok pair => simpa [Reply.apply, made, ofExcept, careful] using done answer pair.1 pair.2 made answered
  | lost answer =>
    cases made : f answer s with
    | error error => simpa [Reply.apply, made, ofExcept, careful] using failed answer error made
    | ok pair => simpa [Reply.apply, made, ofExcept, careful] using lost answer pair.1 pair.2 made answered

/-- A step that only reads. -/
theorem careful.ask [Fault ε] {R : β → σ → Prop} {site : S} {f : ι → σ → Except ε β} (visit : C site s)
    (fails : ∀ error, E error s) (reads : ∀ answer value, f answer s = .ok value → R value s) :
    (ask site f : Process S σ ι ε β).careful permits R E C s :=
  .of_wp (wp_ask visit fails reads)

/-- A step that only changes the state, and that takes effect when it succeeds. -/
theorem careful.modify [Fault ε] {R : Unit → σ → Prop} {site : S} {f : σ → σ} (visit : C site s)
    (never : ∀ answer, ¬ permits site s (.lost answer)) (refused : permits site s .refused → E Fault.fault s)
    (done : ∀ answer, permits site s (.done answer) → R () (f s)) :
    (modify site f : Process S σ ι ε Unit).careful permits R E C s := by
  refine ⟨visit, fun reply answered => ?_⟩
  cases reply with
  | refused => exact refused answered
  | done answer => exact done answer answered
  | lost answer => exact absurd answered (never answer)

theorem careful.mark {R : Unit → σ → Prop} {site : S} {f : σ → σ} (visit : C site s) (moved : R () (f s)) :
    (mark site f : Process S σ ι ε Unit).careful permits R E C s := ⟨visit, fun _ _ => moved⟩

theorem careful.view {R : β → σ → Prop} {site : S} {f : σ → β} (visit : C site s) (seen : R (f s) s) :
    (view site f : Process S σ ι ε β).careful permits R E C s := ⟨visit, fun _ _ => seen⟩

theorem careful.attempt {R : Bool → σ → Prop} {p : Process S σ ι ε Unit}
    (both : p.careful permits (fun _ => R true) (fun _ => R false) C s) :
    (attempt p).careful permits R E C s :=
  .handle (.bind both)

/-- The loop rule. -/
theorem careful.each {items : List β} {body : β → Process S σ ι ε Unit} {P : σ → Prop}
    (turn : ∀ item t, P t → (body item).careful permits (fun _ => P) E C t) (start : P s) :
    (each items body).careful permits (fun _ => P) E C s := by
  induction items generalizing s with
  | nil => exact start
  | cons item rest ih => exact .bind ((turn item s start).mono (fun _ _ held => ih held) fun _ _ held => held)

/-- A look. -/
theorem careful.probe {R : Bool → σ → Prop} {site : S} {f : σ → Bool} (visit : C site s) (seen : R (f s) s)
    (missed : ∀ reply, (¬ ∃ answer, reply = .done answer) → permits site s reply → R false s) :
    (probe site f : Process S σ ι ε Bool).careful permits R E C s := by
  refine ⟨visit, fun reply answered => ?_⟩
  cases reply with
  | done answer => exact seen
  | refused => exact missed _ (by simp) answered
  | lost answer => exact missed _ (by simp) answered

/-- The process is permitted these answers. -/
def heeds (permits : S → σ → Reply ι → Prop) : Process S σ ι ε α → σ → List (Reply ι) → Prop
  | .perform site effect next, s, reply :: rest =>
    permits site s reply ∧ heeds permits (next reply s) (effect reply s) rest
  | _, _, _ => True

end Process

namespace Service

variable (service : Service K S σ ι ε α D)

/-- A process may be killed here: it is at its end, or before a step where that is not ruled out. -/
def Interruptible (killable : S → σ → Prop) (s : σ) : Process S σ ι ε α → Prop
  | .perform site _ _ => killable site s
  | _ => True

/-- An event that is allowed in this situation. -/
def Careful (permits : S → σ → Reply ι → Prop) (killable : S → σ → Prop) (host : Host K S σ ι ε α) :
    HostEvent K S ι ε α D → Prop
  | .advance site reply => permits site host.shared reply
  | .crash => ∀ session, host.running = some session → Interruptible killable host.shared session.rest
  | _ => True

/-- The machine of the service whose every event is allowed. -/
def carefulMachine (permits : S → σ → Reply ι → Prop) (killable : S → σ → Prop) :
    LabeledMachine (Host K S σ ι ε α) (HostEvent K S ι ε α D) :=
  service.machine.restrict (Careful permits killable)

/-- What the calls promise when they may only be killed where it is allowed. -/
structure CriticalPromise (S K σ ε α : Type) (killable : S → σ → Prop) where
  Inv : σ → Prop
  At : S → σ → Prop
  Returns : K → σ → α → σ → Prop
  Raises : K → σ → ε → σ → Prop
  at_inv : ∀ {site s}, killable site s → At site s → Inv s
  returns_inv : ∀ {call began value s}, Returns call began value s → Inv s
  raises_inv : ∀ {call began error s}, Raises call began error s → Inv s

variable {service} {permits : S → σ → Reply ι → Prop} {killable : S → σ → Prop}
  {promise : CriticalPromise S K σ ε α killable}

/-- The rest of a running process keeps its promise; between calls the invariant holds. -/
def CriticalPromise.Kept (permits : S → σ → Reply ι → Prop) (promise : CriticalPromise S K σ ε α killable)
    (host : Host K S σ ι ε α) : Prop :=
  match host.running with
  | none => promise.Inv host.shared
  | some session =>
    session.rest.careful permits (promise.Returns session.call session.began)
      (promise.Raises session.call session.began) promise.At host.shared

/-- The invariant holds wherever the process may be killed. -/
theorem CriticalPromise.Kept.inv {host : Host K S σ ι ε α} (kept : promise.Kept permits host)
    (interruptible : ∀ session, host.running = some session →
      Interruptible killable host.shared session.rest) : promise.Inv host.shared := by
  obtain ⟨s, running⟩ := host
  cases running with
  | none => exact kept
  | some session =>
    obtain ⟨call, began, rest⟩ := session
    have killed := interruptible _ rfl
    cases rest with
    | ret value => exact promise.returns_inv kept
    | raise error => exact promise.raises_inv kept
    | perform site effect next => exact promise.at_inv killed kept.1

/-- What a step of a running process meets at its site. -/
theorem CriticalPromise.Kept.at {host target : Host K S σ ι ε α} {site : S} {reply : Reply ι}
    (kept : promise.Kept permits host) (taken : service.Step host (.advance site reply) target) :
    promise.At site host.shared := by
  cases taken
  exact kept.1

/-- One careful event keeps the promise of what is running. -/
theorem CriticalPromise.Kept.step {host target : Host K S σ ι ε α} {event : HostEvent K S ι ε α D}
    (calls : ∀ call s, promise.Inv s →
      (service.program call).careful permits (promise.Returns call s) (promise.Raises call s) promise.At s)
    (drifts : ∀ change s t, promise.Inv s → service.drift change s = some t → promise.Inv t)
    (kept : promise.Kept permits host)
    (taken : (service.carefulMachine permits killable).Step host event target) :
    promise.Kept permits target := by
  obtain ⟨taken, careful⟩ := taken
  cases taken with
  | begin s call => exact calls call s kept
  | advance s call began site effect next reply => exact kept.2 reply careful
  | returned s call began value => exact promise.returns_inv kept
  | raised s call began error => exact promise.raises_inv kept
  | crash s session => exact kept.inv careful
  | drift s t change moved => exact drifts change s t kept moved

/-- The rule of careful runs. -/
theorem careful_run {origin host : Host K S σ ι ε α} {events : List (HostEvent K S ι ε α D)}
    (calls : ∀ call s, promise.Inv s →
      (service.program call).careful permits (promise.Returns call s) (promise.Raises call s) promise.At s)
    (drifts : ∀ change s t, promise.Inv s → service.drift change s = some t → promise.Inv t)
    (idle : origin.running = none) (starts : promise.Inv origin.shared)
    (run : Run (service.carefulMachine permits killable) origin events host) :
    promise.Kept permits host := by
  refine run.preserves (P := promise.Kept permits) ?_ ?_
  · exact fun _ taken held => held.step calls drifts taken
  · obtain ⟨s, running⟩ := origin
    cases idle
    exact starts

/-- An execution with permitted answers is a careful run. -/
theorem careful_exec (service : Service K S σ ι ε α D) {p : Process S σ ι ε α} {s : σ} (call : K) (began : σ)
    {replies : List (Reply ι)} (heeds : p.heeds permits s replies) :
    Run (service.carefulMachine permits killable) ⟨s, some ⟨call, began, p⟩⟩ (trace p s replies)
      ⟨(exec p s replies).2, some ⟨call, began, (exec p s replies).1⟩⟩ := by
  induction replies generalizing p s with
  | nil => cases p <;> exact .nil _
  | cons reply rest ih =>
    cases p with
    | ret value => exact .nil _
    | raise error => exact .nil _
    | perform site effect next =>
      exact .cons ⟨.advance s call began site effect next reply, heeds.1⟩ (ih heeds.2)

/-- A call that is killed where it may be. -/
theorem careful_killed (service : Service K S σ ι ε α D) {s : σ} (call : K) {replies : List (Reply ι)}
    (heeds : (service.program call).heeds permits s replies)
    (interruptible : Interruptible killable (exec (service.program call) s replies).2
      (exec (service.program call) s replies).1) :
    Run (service.carefulMachine permits killable) ⟨s, none⟩
      (.begin call :: (trace (service.program call) s replies ++ [.crash]))
      ⟨(exec (service.program call) s replies).2, none⟩ := by
  refine .cons ⟨.begin s call, trivial⟩ ((careful_exec service call s heeds).append (.single ⟨.crash _ _, ?_⟩))
  rintro session ⟨⟩
  exact interruptible

end Service

end Machine
