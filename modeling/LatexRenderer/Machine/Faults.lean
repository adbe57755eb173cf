import LatexRenderer.Machine.Session

/-! # Errors that only failing steps explain

A process that ends with an error because a step failed may be right, one that ends with an error although
every step succeeded is not. `Faulty` says that the environment may let a step fail at all. A promise whose
error condition mentions it is proved once: with `anyAnswer` it is a promise about failures, with `noFailure` it
says that the process completes. `Service.session_wp` carries promises that depend on the state in which the
running call began through whole runs.
-/

namespace Machine

variable {K S σ ι ε α β D : Type}

namespace Process

/-- The environment may let some step fail. -/
def Faulty (allowed : S → Reply ι → Prop) : Prop :=
  ∃ site reply, allowed site reply ∧ ∀ answer, reply ≠ .done answer

theorem not_faulty_noFailure : ¬ Faulty (noFailure : S → Reply ι → Prop) := by
  rintro ⟨site, reply, ⟨answer, rfl⟩, fails⟩
  exact fails answer rfl

variable [Fault ε] {allowed : S → Reply ι → Prop} {E : ε → σ → Prop} {C : S → σ → Prop} {s : σ} {site : S}

/-- One step: the fault needs an environment that lets steps fail. -/
theorem wp_step {R : β → σ → Prop} {f : ι → σ → Except ε (β × σ)} (visit : C site s)
    (refused : Faulty allowed → E Fault.fault s)
    (own : ∀ answer error, f answer s = .error error → E error s)
    (moves : ∀ answer value t, f answer s = .ok (value, t) →
      R value t ∧ (Faulty allowed → E Fault.fault t)) :
    wp allowed R E C (act site f) s := by
  refine wp_act.mpr ⟨visit, fun reply answered => ?_⟩
  cases reply with
  | done answer =>
    cases made : f answer s with
    | error error => simpa [Reply.apply, made, ofExcept] using own answer error made
    | ok pair => simpa [Reply.apply, made, ofExcept] using (moves answer pair.1 pair.2 made).1
  | refused => exact refused ⟨site, _, answered, fun _ never => by cases never⟩
  | lost answer =>
    have faulty : Faulty allowed := ⟨site, _, answered, fun _ never => by cases never⟩
    cases made : f answer s with
    | error error => simpa [Reply.apply, made, ofExcept] using own answer error made
    | ok pair => simpa [Reply.apply, made, ofExcept] using (moves answer pair.1 pair.2 made).2 faulty

/-- A step that only reads. -/
theorem wp_look {R : β → σ → Prop} {f : ι → σ → Except ε β} (visit : C site s)
    (fails : Faulty allowed → E Fault.fault s)
    (own : ∀ answer error, f answer s = .error error → E error s)
    (reads : ∀ answer value, f answer s = .ok value → R value s) :
    wp allowed R E C (ask site f) s := by
  refine wp_step visit fails (fun answer error read => ?_) fun answer value t read => ?_
  · cases result : f answer s with
    | error other =>
      rw [result] at read
      cases read
      exact own answer error result
    | ok value =>
      rw [result] at read
      cases read
  · cases result : f answer s with
    | error other =>
      rw [result] at read
      cases read
    | ok found =>
      rw [result] at read
      cases read
      exact ⟨reads answer value result, fails⟩

/-- A step that only changes the state. -/
theorem wp_change {R : Unit → σ → Prop} {f : σ → σ} (visit : C site s)
    (refused : Faulty allowed → E Fault.fault s) (changed : R () (f s) ∧ (Faulty allowed → E Fault.fault (f s))) :
    wp allowed R E C (modify site f) s := by
  refine wp_step visit refused (fun answer error never => by cases never) fun answer value t made => ?_
  cases made
  exact changed

omit [Fault ε] in
/-- A promise that blames every error on a failing step says that without failing steps there is none. -/
theorem Completes.of_faulty {Q : α → σ → Prop} {p : Process S σ ι ε α}
    (promise : p.wp noFailure Q E C s) (blamed : ∀ error t, ¬ E error t) : p.Completes Q s :=
  wp.mono promise (fun _ _ held => held) (fun error t held => blamed error t held) fun _ _ _ => trivial

end Process

namespace Service

variable {service : Service K S σ ι ε α D} {allowed : S → Reply ι → Prop}

/-- What the calls promise may speak of the call and of the state in which it began: in every reachable
situation the running call began in a good state, and what is left of it keeps the promise. -/
theorem session_wp (Inv : σ → Prop) (At : K → σ → S → σ → Prop) (Returns : K → σ → α → σ → Prop)
    (Raises : K → σ → ε → σ → Prop) (starts : ∀ s, service.Init s → Inv s)
    (calls : ∀ call s, Inv s →
      (service.program call).wp allowed (Returns call s) (Raises call s) (At call s) s)
    (visits : ∀ call began site s, At call began site s → Inv s)
    (returns : ∀ call began value s, Returns call began value s → Inv s)
    (raises : ∀ call began error s, Raises call began error s → Inv s)
    (drifts : ∀ change s t, Inv s → service.drift change s = some t → Inv t)
    {origin host : Host K S σ ι ε α} {events : List (HostEvent K S ι ε α D)}
    (init : service.machine.Init origin) (run : Run service.machine origin events host)
    (allows : ∀ event ∈ events, Allows allowed event) :
    (host.running = none → Inv host.shared) ∧
      ∀ session, host.running = some session → Inv session.began ∧
        session.rest.wp allowed (Returns session.call session.began) (Raises session.call session.began)
          (At session.call session.began) host.shared := by
  refine run.preserves (P := fun h => (h.running = none → Inv h.shared) ∧
    ∀ session, h.running = some session → Inv session.began ∧
      session.rest.wp allowed (Returns session.call session.began) (Raises session.call session.began)
        (At session.call session.began) h.shared) ?_ ?_
  · rintro a event b member taken ⟨idle, busy⟩
    cases taken with
    | begin s call =>
      refine ⟨fun never => (by cases never), fun session running => ?_⟩
      cases running
      exact ⟨idle rfl, calls call s (idle rfl)⟩
    | advance s call began site effect next reply =>
      refine ⟨fun never => (by cases never), fun session running => ?_⟩
      cases running
      obtain ⟨good, rest⟩ := busy _ rfl
      exact ⟨good, rest.2 reply (allows _ member)⟩
    | returned s call began value =>
      exact ⟨fun _ => returns call began value s (busy _ rfl).2, fun session never => by cases never⟩
    | raised s call began error =>
      exact ⟨fun _ => raises call began error s (busy _ rfl).2, fun session never => by cases never⟩
    | crash s session =>
      refine ⟨fun _ => ?_, fun session never => by cases never⟩
      obtain ⟨call, began, rest⟩ := session
      have held := (busy _ rfl).2
      cases rest with
      | ret value => exact returns call began value s held
      | raise error => exact raises call began error s held
      | perform site effect next => exact visits call began site s held.1
    | drift s t change moved =>
      exact ⟨fun _ => drifts change s t (idle rfl) moved, fun session never => by cases never⟩
  · obtain ⟨started, idle⟩ := init
    refine ⟨fun _ => starts origin.shared started, fun session running => ?_⟩
    rw [idle] at running
    cases running

end Service

end Machine
