import LatexRenderer.Machine.Session

/-! # Write transactions, statement by statement

Any number of callers run transactions against one database. A transaction takes the write lock when it begins, its
statements work on a copy that nobody else sees, and it ends with the commit of that copy or is rolled back: when its
operation fails, when the commit does, or when its process dies. `serial_simulates` reduces the interleavings of the
statements to the order of the commits.
-/

namespace Machine

variable {K S σ ι ε α : Type}

/-- The transaction that holds the lock: its call, the rest of its statements and what they have made of the database. -/
structure WriteTransaction (K S σ ι ε α : Type) where
  call : K
  rest : Process S σ ι ε α
  working : σ

/-- The committed database and the transaction in progress. -/
structure Serial (K S σ ι ε α : Type) where
  committed : σ
  writing : Option (WriteTransaction K S σ ι ε α) := none

/-- What happens next. -/
inductive SerialEvent (K ι : Type) where
  | begin (call : K)
  | statement (reply : Reply ι)
  | commit
  | rollback

/-- One event of transactions that run these programs. -/
inductive SerialStep (program : K → Process S σ ι ε α) :
    Serial K S σ ι ε α → SerialEvent K ι → Serial K S σ ι ε α → Prop
  | begin (s : σ) (call : K) : SerialStep program ⟨s, none⟩ (.begin call) ⟨s, some ⟨call, program call, s⟩⟩
  | statement (s working : σ) (call : K) (site : S) (effect : Reply ι → σ → σ) (next : Reply ι → σ → Process S σ ι ε α)
      (reply : Reply ι) : SerialStep program ⟨s, some ⟨call, .perform site effect next, working⟩⟩ (.statement reply)
        ⟨s, some ⟨call, next reply working, effect reply working⟩⟩
  | commit (s working : σ) (call : K) (value : α) :
      SerialStep program ⟨s, some ⟨call, .ret value, working⟩⟩ .commit ⟨working, none⟩
  | rollback (s : σ) (transaction : WriteTransaction K S σ ι ε α) :
      SerialStep program ⟨s, some transaction⟩ .rollback ⟨s, none⟩

/-- The statements of all callers, interleaved as the lock permits. -/
def serialMachine (init : σ → Prop) (program : K → Process S σ ι ε α) :
    LabeledMachine (Serial K S σ ι ε α) (SerialEvent K ι) where
  Init s := init s.committed ∧ s.writing = none
  Step := SerialStep program

/-- A transaction that runs from its first statement to its commit. -/
def Commits (program : K → Process S σ ι ε α) (s : σ) (call : K) (value : α) (t : σ) : Prop :=
  ∃ replies, Service.exec (program call) s replies = (.ret value, t)

/-- Whole transactions, one after the other. -/
def atomicMachine (init : σ → Prop) (program : K → Process S σ ι ε α) : LabeledMachine σ K where
  Init := init
  Step s call t := ∃ value, Commits program s call value t

variable {init : σ → Prop} {program : K → Process S σ ι ε α} {host next : Serial K S σ ι ε α} {event : SerialEvent K ι}
  {call : K} {rest : Process S σ ι ε α} {s working : σ} {value : α}

/-- One more answer. -/
theorem exec_append {p : Process S σ ι ε α} {replies : List (Reply ι)} {site : S} {effect : Reply ι → σ → σ}
    {next : Reply ι → σ → Process S σ ι ε α} (ran : Service.exec p s replies = (.perform site effect next, working))
    (reply : Reply ι) : Service.exec p s (replies ++ [reply]) = (next reply working, effect reply working) := by
  induction replies generalizing p s with
  | nil =>
    cases p with
    | ret value => cases ran
    | raise error => cases ran
    | perform site effect next =>
      cases ran
      show Service.exec (next reply working) (effect reply working) [] = _
      cases next reply working <;> rfl
  | cons first replies ih =>
    cases p with
    | ret value => cases ran
    | raise error => cases ran
    | perform site effect next => exact ih ran

/-- A transaction in progress has worked on what is committed. -/
theorem serial_working (reached : Reachable (serialMachine init program) host)
    (writing : host.writing = some ⟨call, rest, working⟩) :
    ∃ replies, Service.exec (program call) host.committed replies = (rest, working) := by
  refine reached.induction (P := fun host => ∀ call rest working, host.writing = some ⟨call, rest, working⟩ →
    ∃ replies, Service.exec (program call) host.committed replies = (rest, working)) ?_ ?_ call rest working writing
  · intro host start call rest working writing
    rw [start.2] at writing
    cases writing
  · intro host event next _ taken ran call rest working writing
    cases taken with
    | begin s call =>
      cases writing
      refine ⟨[], ?_⟩
      cases program call <;> rfl
    | statement s working call site effect next reply =>
      cases writing
      obtain ⟨replies, before⟩ := ran _ _ _ rfl
      exact ⟨replies ++ [reply], exec_append before reply⟩
    | commit s working call value => cases writing
    | rollback s transaction => cases writing

/-- What is about to be committed is what the whole transaction makes of what is committed. -/
theorem serial_commits (reached : Reachable (serialMachine init program) host)
    (writing : host.writing = some ⟨call, .ret value, working⟩) : Commits program host.committed call value working :=
  serial_working reached writing

/-- Only a commit changes what is committed, and it commits a whole transaction. -/
theorem serial_committed (reached : Reachable (serialMachine init program) host) (taken : SerialStep program host event next) :
    next.committed = host.committed ∨
      ∃ call value, host.writing = some ⟨call, .ret value, next.committed⟩ ∧
        Commits program host.committed call value next.committed := by
  cases taken with
  | begin s call => exact .inl rfl
  | statement s working call site effect next reply => exact .inl rfl
  | commit s working call value => exact .inr ⟨call, value, rfl, serial_commits reached rfl⟩
  | rollback s transaction => exact .inl rfl

theorem serial_simulates : Simulates (serialMachine init program) (atomicMachine init program) (·.committed) where
  init start := start.1
  step reached taken := by
    rcases serial_committed reached taken with same | ⟨call, value, -, commits⟩
    · exact .inl same
    · exact .inr ⟨call, value, commits⟩

/-- Statements of the transaction in progress. -/
theorem run_statements (init : σ → Prop) (program : K → Process S σ ι ε α) (s : σ) (call : K) (p : Process S σ ι ε α)
    (working : σ) (replies : List (Reply ι)) :
    ∃ events, Run (serialMachine init program) ⟨s, some ⟨call, p, working⟩⟩ events
      ⟨s, some ⟨call, (Service.exec p working replies).1, (Service.exec p working replies).2⟩⟩ := by
  induction replies generalizing p working with
  | nil => exact ⟨[], by cases p <;> exact .nil _⟩
  | cons reply replies ih =>
    cases p with
    | ret value => exact ⟨[], .nil _⟩
    | raise error => exact ⟨[], .nil _⟩
    | perform site effect next =>
      obtain ⟨events, run⟩ := ih (next reply working) (effect reply working)
      exact ⟨.statement reply :: events, .cons (.statement s working call site effect next reply) run⟩

/-- Whole transactions are among the interleavings. -/
theorem serial_of_atomic (reached : Reachable (atomicMachine init program) s) :
    Reachable (serialMachine init program) ⟨s, none⟩ := by
  refine reached.induction (P := fun s => Reachable (serialMachine init program) ⟨s, none⟩) ?_ ?_
  · exact fun start => .init ⟨start, rfl⟩
  · rintro s call t - ⟨value, replies, ran⟩ before
    obtain ⟨events, run⟩ : ∃ events, Run (serialMachine init program) ⟨s, some ⟨call, program call, s⟩⟩ events
        ⟨s, some ⟨call, .ret value, t⟩⟩ := by
      have run := run_statements init program s call (program call) s replies
      rw [ran] at run
      exact run
    exact (run.reachable (before.step (.begin s call))).step (.commit s t call value)

/-- What a transaction commits when its statements get these answers. -/
def committed? (program : K → Process S σ ι ε α) (s : σ) : K × List (Reply ι) → Option σ
  | (call, replies) =>
    match Service.exec (program call) s replies with
    | (.ret _, t) => some t
    | _ => none

/-- A replay of transactions is a run of them. -/
theorem atomic_of_replay? {t : σ} {calls : List (K × List (Reply ι))} (start : init s)
    (replayed : replay? (committed? program) s calls = some t) : Reachable (atomicMachine init program) t := by
  have reached : Reachable (ofPartial init (committed? program)) t := ⟨s, calls, start, run_of_replay? replayed⟩
  refine reached.induction (P := fun t => Reachable (atomicMachine init program) t) ?_ ?_
  · exact fun start => .init (show (atomicMachine init program).Init _ from start)
  · rintro s ⟨call, replies⟩ t - taken before
    change committed? program s (call, replies) = some t at taken
    cases ran : Service.exec (program call) s replies with
    | mk rest after =>
      rw [committed?, ran] at taken
      cases rest with
      | ret value =>
        cases taken
        exact before.step (show (atomicMachine init program).Step s call _ from ⟨value, replies, ran⟩)
      | raise error => cases taken
      | perform site effect next => cases taken

/-- However its statements are answered, a process that returns returns as promised. -/
def Process.Returns (p : Process S σ ι ε α) (Q : α → σ → Prop) (s : σ) : Prop := p.Ends Q (fun _ _ => True) s

/-- A transaction commits only what it promises. -/
theorem Commits.returns {Q : α → σ → Prop} {t : σ} (commits : Commits program s call value t)
    (returns : (program call).Returns Q s) : Q value t := by
  obtain ⟨replies, ran⟩ := commits
  exact Service.exec_returns returns ran

namespace Process

variable {β : Type} {Q Q' : α → σ → Prop} {R : β → σ → Prop} {p : Process S σ ι ε α} {site : S} {error : ε}

theorem Returns.bind {f : α → Process S σ ι ε β} (first : p.Returns (fun value t => (f value).Returns R t) s) :
    (p >>= f).Returns R s := Ends.bind first

theorem Returns.mono (strong : p.Returns Q s) (returns : ∀ value t, Q value t → Q' value t) : p.Returns Q' s :=
  Ends.mono strong returns fun _ _ _ => trivial

theorem returns_pure (holds : Q value s) : (pure value : Process S σ ι ε α).Returns Q s := holds

theorem returns_require {R : Unit → σ → Prop} {condition : Prop} [Decidable condition] (holds : condition → R () s) :
    (require condition error : Process S σ ι ε Unit).Returns R s := ends_require holds trivial

theorem returns_act [Fault ε] {f : ι → σ → Except ε (β × σ)}
    (moves : ∀ answer value t, f answer s = .ok (value, t) → R value t) : (act site f : Process S σ ι ε β).Returns R s := by
  show wp anyAnswer R (fun _ _ => True) (fun _ _ => True) (act site f) s
  refine wp_act.mpr ⟨trivial, fun reply _ => ?_⟩
  cases reply with
  | done answer =>
    cases acted : f answer s with
    | error error => simp [Reply.apply, acted]
    | ok both => simpa [Reply.apply, acted] using moves answer both.1 both.2 acted
  | refused => simp [Reply.apply]
  | lost answer =>
    cases acted : f answer s with
    | error error => simp [Reply.apply, acted]
    | ok both => simp [Reply.apply, acted]

theorem returns_ask [Fault ε] {f : ι → σ → Except ε β} (reads : ∀ answer value, f answer s = .ok value → R value s) :
    (ask site f : Process S σ ι ε β).Returns R s :=
  ends_ask trivial (fun _ _ _ => trivial) reads

theorem returns_modify [Fault ε] {R : Unit → σ → Prop} {f : σ → σ} (holds : R () (f s)) :
    (modify site f : Process S σ ι ε Unit).Returns R s :=
  returns_act fun _ _ _ moved => by cases moved; exact holds

theorem returns_each {items : List β} {body : β → Process S σ ι ε Unit} {P : σ → Prop}
    (turn : ∀ item ∈ items, ∀ t, P t → (body item).Returns (fun _ => P) t) (start : P s) :
    (each items body).Returns (fun _ => P) s := ends_each turn start

/-- What a process returns, it returns after some answers. -/
theorem returns_reached (p : Process S σ ι ε α) (s : σ) :
    p.Returns (fun value t => ∃ replies, Service.exec p s replies = (.ret value, t)) s := by
  induction p generalizing s with
  | ret value => exact ⟨[], rfl⟩
  | raise error => trivial
  | perform site effect next ih =>
    refine ⟨trivial, fun reply _ => ?_⟩
    refine (ih reply s (effect reply s)).mono fun value t => ?_
    rintro ⟨replies, ran⟩
    exact ⟨reply :: replies, ran⟩

/-- Two promises at once. -/
theorem Returns.and (first : p.Returns Q s) (second : p.Returns Q' s) : p.Returns (fun value t => Q value t ∧ Q' value t) s := by
  induction p generalizing s with
  | ret value => exact ⟨first, second⟩
  | raise error => trivial
  | perform site effect next ih =>
    exact ⟨trivial, fun reply answered => ih reply s (first.2 reply answered) (second.2 reply answered)⟩

end Process

end Machine
