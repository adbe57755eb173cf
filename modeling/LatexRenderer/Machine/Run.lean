import Mathlib.Data.List.Basic

/-! # Labelled machines, their runs and the rules of invariants

A `LabeledMachine` gives the states in which a run starts and what each labelled step may do.
`Run m s es t` is a finite run that carries exactly the labels `es`, and `Reachable m t` is the end of
a run from a start state. Safety statements are proved through three rules: an invariant holds at the
start and is kept by every step, a stable property survives the rest of a run, and an event that needs
an open state and closes it for good occurs at most once. `restrict` keeps the steps that meet a
condition; `Simulates` carries every run of a machine to a run of a more abstract one.
-/

namespace Machine

universe u v w

/-- Start states and labelled steps. -/
structure LabeledMachine (σ : Type u) (ε : Type v) where
  Init : σ → Prop
  Step : σ → ε → σ → Prop

/-- A machine whose steps are a partial function; `none` means that the label changes nothing. -/
def ofPartial {σ : Type u} {ε : Type v} (init : σ → Prop) (step : σ → ε → Option σ) :
    LabeledMachine σ ε where
  Init := init
  Step s e t := step s e = some t

variable {σ : Type u} {ε : Type v} {m : LabeledMachine σ ε}

/-- A finite run carrying exactly its labels. -/
inductive Run (m : LabeledMachine σ ε) : σ → List ε → σ → Prop
  | nil (s : σ) : Run m s [] s
  | cons {s mid t : σ} {e : ε} {es : List ε} : m.Step s e mid → Run m mid es t → Run m s (e :: es) t

/-- The states at the end of a run from a start state. -/
def Reachable (m : LabeledMachine σ ε) (t : σ) : Prop :=
  ∃ s es, m.Init s ∧ Run m s es t

namespace Run

theorem single {s t : σ} {e : ε} (step : m.Step s e t) : Run m s [e] t :=
  .cons step (.nil t)

/-- Runs compose at their shared endpoint. -/
theorem append {s mid t : σ} {first second : List ε} (left : Run m s first mid)
    (right : Run m mid second t) : Run m s (first ++ second) t := by
  induction left with
  | nil _ => exact right
  | cons step _ ih => exact .cons step (ih right)

/-- A property kept by every step of the run holds at its end. -/
theorem preserves {P : σ → Prop} {s t : σ} {es : List ε} (run : Run m s es t)
    (keep : ∀ {a e b}, e ∈ es → m.Step a e b → P a → P b) (start : P s) : P t := by
  induction run with
  | nil _ => exact start
  | cons step _ ih =>
    exact ih (fun member => keep (List.mem_cons_of_mem _ member)) (keep List.mem_cons_self step start)

/-- A reflexive and transitive relation that every step respects relates the ends of a run. -/
theorem relates {R : σ → σ → Prop} (refl : ∀ a, R a a) (trans : ∀ {a b c}, R a b → R b c → R a c)
    {s t : σ} {es : List ε} (run : Run m s es t)
    (step : ∀ {a e b}, m.Step a e b → R a b) : R s t := by
  induction run with
  | nil s => exact refl s
  | cons taken _ ih => exact trans (step taken) ih

theorem reachable {s t : σ} {es : List ε} (run : Run m s es t) (start : Reachable m s) :
    Reachable m t := by
  obtain ⟨origin, before, init, path⟩ := start
  exact ⟨origin, before ++ es, init, path.append run⟩

end Run

namespace Reachable

theorem init {s : σ} (start : m.Init s) : Reachable m s :=
  ⟨s, [], start, .nil s⟩

theorem step {s t : σ} {e : ε} (start : Reachable m s) (taken : m.Step s e t) : Reachable m t :=
  (Run.single taken).reachable start

/-- The invariant rule: what holds at the start and is kept by every step holds in every reachable
state. The step may use that its source is reachable. -/
theorem induction {P : σ → Prop} (base : ∀ {s}, m.Init s → P s)
    (keep : ∀ {s e t}, Reachable m s → m.Step s e t → P s → P t) {t : σ}
    (reached : Reachable m t) : P t := by
  obtain ⟨s, es, start, run⟩ := reached
  have both : Reachable m t ∧ P t :=
    run.preserves (P := fun a => Reachable m a ∧ P a)
      (fun _ taken held => ⟨held.1.step taken, keep held.1 taken held.2⟩) ⟨.init start, base start⟩
  exact both.2

end Reachable

/-- The rest of a run from a reachable state keeps a property that every step from a reachable state
keeps. -/
theorem Run.stable {P : σ → Prop} {s t : σ} {es : List ε} (run : Run m s es t)
    (reached : Reachable m s)
    (keep : ∀ {a e b}, Reachable m a → m.Step a e b → P a → P b) (start : P s) : P t := by
  have both : Reachable m t ∧ P t :=
    run.preserves (P := fun a => Reachable m a ∧ P a)
      (fun _ taken held => ⟨held.1.step taken, keep held.1 taken held.2⟩) ⟨reached, start⟩
  exact both.2

section Replay

variable {init : σ → Prop} {step : σ → ε → Option σ}

/-- The state after a list of labels, when every one of them is a step. -/
def replay? (step : σ → ε → Option σ) : σ → List ε → Option σ
  | s, [] => some s
  | s, e :: es => (step s e).bind fun next => replay? step next es

theorem run_of_replay? {s t : σ} {es : List ε} (replayed : replay? step s es = some t) :
    Run (ofPartial init step) s es t := by
  induction es generalizing s with
  | nil =>
    cases replayed
    exact .nil _
  | cons e es ih =>
    obtain ⟨next, taken, rest⟩ := Option.bind_eq_some_iff.mp replayed
    exact .cons taken (ih rest)

/-- A replay whose end passes a check shows a run to a state that passes it. -/
theorem exists_run_of_replay? {s : σ} {es : List ε} {check : σ → Bool}
    (passes : (replay? step s es).any check = true) :
    ∃ t, Run (ofPartial init step) s es t ∧ check t = true := by
  obtain ⟨t, replayed, passed⟩ := (Option.any_eq_true ..).mp passes
  exact ⟨t, run_of_replay? replayed, passed⟩

end Replay

section AtMostOnce

variable {fires : ε → Bool}

/-- A closed state lets no event of the kind happen for the rest of the run. `Valid` is an invariant that
the steps may use. -/
theorem Run.count_eq_zero (Valid Closed : σ → Prop)
    (valid : ∀ {a e b}, m.Step a e b → Valid a → Valid b)
    (blocked : ∀ {a e b}, Valid a → m.Step a e b → fires e = true → ¬ Closed a)
    (keep : ∀ {a e b}, Valid a → m.Step a e b → Closed a → Closed b)
    {s t : σ} {es : List ε} (run : Run m s es t) (start : Valid s) (closed : Closed s) :
    es.countP fires = 0 := by
  induction run with
  | nil _ => rfl
  | @cons _ _ _ e _ taken _ ih =>
    have silent : fires e = false := by
      cases fired : fires e with
      | false => rfl
      | true => exact absurd closed (blocked start taken fired)
    rw [List.countP_cons_of_neg (by simp [silent])]
    exact ih (valid taken start) (keep start taken closed)

/-- An event that closes the state behind it, where closed states stay closed and block it, occurs at
most once in a run. -/
theorem Run.count_le_one (Valid Closed : σ → Prop)
    (valid : ∀ {a e b}, m.Step a e b → Valid a → Valid b)
    (blocked : ∀ {a e b}, Valid a → m.Step a e b → fires e = true → ¬ Closed a)
    (keep : ∀ {a e b}, Valid a → m.Step a e b → Closed a → Closed b)
    (closes : ∀ {a e b}, Valid a → m.Step a e b → fires e = true → Closed b)
    {s t : σ} {es : List ε} (run : Run m s es t) (start : Valid s) : es.countP fires ≤ 1 := by
  induction run with
  | nil _ => exact Nat.zero_le 1
  | @cons _ _ _ e _ taken rest ih =>
    have later := valid taken start
    cases fired : fires e with
    | false =>
      rw [List.countP_cons_of_neg (by simp [fired])]
      exact ih later
    | true =>
      rw [List.countP_cons_of_pos fired]
      have none := rest.count_eq_zero Valid Closed valid blocked keep later (closes start taken fired)
      omega

end AtMostOnce

section Restrict

/-- The machine that takes only the steps meeting a condition on the state before the step and the
label. -/
def LabeledMachine.restrict (m : LabeledMachine σ ε) (ok : σ → ε → Prop) : LabeledMachine σ ε where
  Init := m.Init
  Step s e t := m.Step s e t ∧ ok s e

variable {ok : σ → ε → Prop}

theorem Run.of_restrict {s t : σ} {es : List ε} (run : Run (m.restrict ok) s es t) :
    Run m s es t := by
  induction run with
  | nil s => exact .nil s
  | cons taken _ ih => exact .cons taken.1 ih

/-- A run whose labels meet the condition in every state is a run of the restricted machine. -/
theorem Run.restrict {s t : σ} {es : List ε} (run : Run m s es t) (ok : σ → ε → Prop)
    (allowed : ∀ e ∈ es, ∀ a, ok a e) : Run (m.restrict ok) s es t := by
  induction run with
  | nil s => exact .nil s
  | cons taken _ ih =>
    exact .cons ⟨taken, allowed _ List.mem_cons_self _⟩
      (ih fun e member => allowed e (List.mem_cons_of_mem _ member))

theorem Reachable.of_restrict {t : σ} (reached : Reachable (m.restrict ok) t) : Reachable m t := by
  obtain ⟨s, es, start, run⟩ := reached
  exact ⟨s, es, start, run.of_restrict⟩

end Restrict

section Simulation

variable {τ : Type u} {ι : Type w}

/-- Every start state maps to a start state and every step to a step of `n` or to no change. -/
structure Simulates (m : LabeledMachine σ ε) (n : LabeledMachine τ ι) (view : σ → τ) : Prop where
  init : ∀ {s}, m.Init s → n.Init (view s)
  step : ∀ {s e t}, Reachable m s → m.Step s e t → view t = view s ∨ ∃ i, n.Step (view s) i (view t)

/-- A simulation carries reachable states to reachable states. -/
theorem Simulates.reachable {n : LabeledMachine τ ι} {view : σ → τ} (sim : Simulates m n view)
    {t : σ} (reached : Reachable m t) : Reachable n (view t) := by
  refine reached.induction (P := fun a => Reachable n (view a)) (fun start => .init (sim.init start)) ?_
  intro s e t reached taken held
  rcases sim.step reached taken with same | ⟨i, moved⟩
  · rw [same]
    exact held
  · exact held.step moved

end Simulation

end Machine

/-! ## Fencing by a growing generation

A resource is claimed again and again; each claim gets a larger generation, and every event of a holder
carries the generation it claimed. When an event needs its generation to be the current one and the
resource to be held, a holder that was replaced can do nothing any more, and of the events that release
the resource each generation has at most one.
-/

namespace Machine

universe u v

variable {σ : Type u} {ε : Type v}

/-- `carries e` is the generation an event of a holder carries. -/
structure Fenced (m : LabeledMachine σ ε) (generation : σ → ℕ) (held : σ → Prop)
    (carries : ε → Option ℕ) : Prop where
  mono : ∀ {a e b}, m.Step a e b → generation a ≤ generation b
  current : ∀ {a e b g}, m.Step a e b → carries e = some g → generation a = g ∧ held a
  reclaim : ∀ {a e b}, m.Step a e b → ¬ held a → held b → generation a < generation b

namespace Fenced

variable {m : LabeledMachine σ ε} {generation : σ → ℕ} {held : σ → Prop} {carries : ε → Option ℕ}

/-- Once the generation has passed `g`, no event that carries `g` is a step. -/
theorem stale (fenced : Fenced m generation held carries) {a b : σ} {e : ε} {g : ℕ}
    (passed : g < generation a) (carried : carries e = some g) : ¬ m.Step a e b := by
  intro step
  have same := (fenced.current step carried).1
  omega

/-- The generation is past `g`, or is still `g` but released. -/
private def Spent (generation : σ → ℕ) (held : σ → Prop) (g : ℕ) (s : σ) : Prop :=
  g < generation s ∨ (generation s = g ∧ ¬ held s)

private theorem spent_step (fenced : Fenced m generation held carries) {a b : σ} {e : ε} {g : ℕ}
    (step : m.Step a e b) (spent : Spent generation held g a) : Spent generation held g b := by
  have le := fenced.mono step
  rcases spent with passed | ⟨same, released⟩
  · exact .inl (by omega)
  · by_cases again : held b
    · have lt := fenced.reclaim step released again
      exact .inl (by omega)
    · rcases Nat.lt_or_eq_of_le le with lt | eq
      · exact .inl (by omega)
      · exact .inr ⟨by omega, again⟩

/-- Of the events that carry `g` and release the resource, a run holds at most one. -/
theorem release_count_le_one (fenced : Fenced m generation held carries) (g : ℕ)
    (releases : ε → Bool) (carried : ∀ {e}, releases e = true → carries e = some g)
    (released : ∀ {a e b}, m.Step a e b → releases e = true → generation b = generation a ∧ ¬ held b)
    {s t : σ} {es : List ε} (run : Run m s es t) : es.countP releases ≤ 1 := by
  refine run.count_le_one (fun _ => True) (Spent generation held g) (fun _ => id) ?_
    (fun _ => spent_step fenced) ?_ trivial
  · intro a e b _ step fires spent
    have now := fenced.current step (carried fires)
    rcases spent with passed | ⟨_, free⟩
    · omega
    · exact free now.2
  · intro a e b _ step fires
    have now := fenced.current step (carried fires)
    have after := released step fires
    exact .inr ⟨by omega, after.2⟩

end Fenced

end Machine
