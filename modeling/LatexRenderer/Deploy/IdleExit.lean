import LatexRenderer.Machine.History
import LatexRenderer.Model.Deploy.HttpIdle

/-! # The idle exit drops no work and is not missed

The counters are the numbers of connections without a request, of unfinished exchanges and of running handlers. The
server closes itself only when all are zero and the idle time is over, and while all are zero a timer is armed.
-/

namespace LatexRenderer

open Machine

variable {c : HttpIdleConfiguration} {s t : HttpIdle} {r : ArmReadings} {now : Rat} {event : HttpIdleEvent}

section Specification

/-- The entries from which the idle time counts: the start, and what ended without being passive. -/
def HttpIdleEntry.Counts : HttpIdleEntry → Prop
  | .started _ | .exchange false _ | .handler false _ => True
  | _ => False

/-- The reading of the clock of an entry. -/
def HttpIdleEntry.at : HttpIdleEntry → Rat
  | .started now | .exchange _ now | .handler _ now | .closes now _ _ => now

/-- A connection on which no request was seen. -/
def HttpSocket.fresh (socket : HttpSocket) : Bool := !socket.seen

/-- A request whose response or body is not done. -/
def HttpExchange.unfinished (row : HttpExchange) : Bool := !(row.responseDone && row.requestDone)

/-- The counters are exact, at most one timer is armed, and one is when nothing is left to do. -/
structure IdleExact (c : HttpIdleConfiguration) (s : HttpIdle) : Prop where
  pending : s.pending = s.sockets.countP HttpSocket.fresh
  active : s.active = s.exchanges.countP HttpExchange.unfinished
  tracked : s.tracked = s.handlers.length
  single : s.timers.length ≤ 1
  armed : c.idle = true → s.listening = true → s.closing = false → s.threw = false →
    s.pending = 0 → s.active = 0 → s.tracked = 0 → s.timers ≠ []

end Specification

section Invariant

/-- What the counters stand for. -/
structure IdleCounted (s : HttpIdle) : Prop where
  pending : s.pending = s.sockets.countP HttpSocket.fresh
  active : s.active = s.exchanges.countP HttpExchange.unfinished
  completed : ∀ row ∈ s.exchanges, row.completed = !row.unfinished
  tracked : s.tracked = s.handlers.length
  subscribed : s.closing = false → s.subscribed = true
  newest : s.closing = false → ∃ entry, Latest HttpIdleEntry.Counts entry s.log ∧ entry.at = s.lastCompleted

/-- At most one timer is armed, and it is the one that `clearTimeout` clears. -/
def HttpIdle.Single (s : HttpIdle) : Prop := s.timers = [] ∨ ∃ id delay, s.timers = [(id, delay)] ∧ s.timer = some id

/-- A timer is armed when nothing is left to do. -/
def HttpIdle.Armed (c : HttpIdleConfiguration) (s : HttpIdle) : Prop :=
  c.idle = true → s.listening = true → s.closing = false → s.threw = false →
    s.pending = 0 → s.active = 0 → s.tracked = 0 → s.timers ≠ []

/-- The invariant of a service. -/
structure IdleSound (c : HttpIdleConfiguration) (s : HttpIdle) : Prop where
  counted : IdleCounted s
  single : s.Single
  armed : s.Armed c

theorem HttpIdle.Single.clear (single : s.Single) : s.clear = { s with timers := [] } := by
  unfold HttpIdle.clear
  congr 1
  rcases single with none | ⟨id, delay, one, same⟩
  · rw [none]
    rfl
  · rw [one, same]
    simp

/-- `arm` changes the timers only, and arms one when nothing is left to do. -/
theorem HttpIdle.Single.arm (single : s.Single) (c : HttpIdleConfiguration) (r : ArmReadings) :
    ∃ timer timers created threw, s.arm c r = { s with timer, timers, created, threw } ∧
      (s.arm c r).Single ∧ (s.arm c r).Armed c := by
  have cleared := single.clear
  unfold HttpIdle.arm
  rw [cleared]
  dsimp only
  split
  · next busy =>
    refine ⟨_, _, _, _, rfl, .inl rfl, fun idle _ open' _ pending active tracked => ?_⟩
    rcases busy with never | never | never | never | never
    · cases idle.symm.trans never
    · cases never.symm.trans open'
    · exact absurd active never
    · exact absurd pending never
    · exact absurd tracked never
  · split
    · split
      · exact ⟨_, _, _, _, rfl, .inl rfl, fun _ _ _ never => (by cases never)⟩
      · exact ⟨_, _, _, _, rfl, .inr ⟨_, _, rfl, rfl⟩, fun _ _ _ _ _ _ _ => List.cons_ne_nil _ _⟩
    · exact ⟨_, _, _, _, rfl, .inl rfl, fun _ _ _ never => (by cases never)⟩

theorem IdleCounted.arm (counted : IdleCounted s) (single : s.Single) : IdleSound c (s.arm c r) := by
  obtain ⟨timer, timers, created, threw, same, one, armed⟩ := single.arm c r
  refine ⟨?_, one, armed⟩
  rw [same]
  exact ⟨counted.pending, counted.active, counted.completed, counted.tracked, counted.subscribed, counted.newest⟩

/-- What is counted is counted without a timer while something is left to do. -/
theorem IdleCounted.clear (counted : IdleCounted s) (single : s.Single) (busy : s.active ≠ 0 ∨ s.pending ≠ 0) :
    IdleSound c s.clear := by
  rw [single.clear]
  refine ⟨⟨counted.pending, counted.active, counted.completed, counted.tracked, counted.subscribed, counted.newest⟩,
    .inl rfl, fun _ _ _ _ pending active _ => ?_⟩
  rcases busy with never | never
  · exact absurd active never
  · exact absurd pending never

theorem IdleSound.listens (sound : IdleSound c s) : IdleSound c (s.listens c now r) := by
  have counted := sound.counted
  refine IdleCounted.arm ⟨counted.pending, counted.active, counted.completed, counted.tracked, counted.subscribed, ?_⟩
    sound.single
  exact fun _ => ⟨.started now, .new _ _, rfl⟩

theorem IdleSound.connection (sound : IdleSound c s) (socket : Nat) : IdleSound c (s.connection socket) := by
  have counted := sound.counted
  have one : ((s.sockets ++ [HttpSocket.mk socket false]).countP HttpSocket.fresh : Int) = s.sockets.countP HttpSocket.fresh + 1 := by
    rw [List.countP_append]
    rfl
  have pending : s.pending + 1 = (s.sockets ++ [HttpSocket.mk socket false]).countP HttpSocket.fresh := by
    rw [one, counted.pending]
  refine IdleCounted.clear ⟨pending, counted.active, counted.completed, counted.tracked, counted.subscribed,
    counted.newest⟩ sound.single (.inr ?_)
  show s.pending + 1 ≠ 0
  rw [counted.pending]
  omega

theorem IdleSound.socketClose {socket : Nat} (sound : IdleSound c s) (there : socket ∈ s.sockets.map HttpSocket.id) :
    IdleSound c (s.socketClose c socket r) := by
  have counted := sound.counted
  obtain ⟨row, member, rfl⟩ := List.mem_map.mp there
  obtain ⟨found, before, after, none, own, split, erased⟩ :=
    List.exists_of_eraseP (p := fun other : HttpSocket => other.id == row.id) member (beq_self_eq_true _)
  have first : s.sockets.find? (fun other => other.id == row.id) = some found := by
    rw [split, List.find?_append, List.find?_eq_none.mpr none, Option.none_or]
    exact List.find?_cons_of_pos own
  refine IdleCounted.arm ⟨?_, counted.active, counted.completed, counted.tracked, counted.subscribed, counted.newest⟩
    sound.single
  have whole := counted.pending
  dsimp only
  rw [first, erased]
  rw [split] at whole
  simp only [List.countP_append, List.countP_cons, HttpSocket.fresh, Option.any_some] at whole ⊢
  by_cases seen : found.seen = true
  · simpa [seen] using whole
  · simp [seen] at whole ⊢
    omega

/-- The first request of a connection takes it out of the fresh ones. -/
theorem IdleCounted.see (counted : IdleCounted s) (socket : Nat) : IdleCounted (s.see socket) := by
  unfold HttpIdle.see
  split
  · next sockets updated =>
    obtain ⟨before, row, after, new, shape, -, changed, rfl⟩ := update?_eq_some updated
    refine ⟨?_, counted.active, counted.completed, counted.tracked, counted.subscribed, counted.newest⟩
    have whole := counted.pending
    rw [shape] at whole
    split at changed
    · cases changed
    · next unseen =>
      cases changed
      simp only [List.countP_append, List.countP_cons, HttpSocket.fresh, Bool.eq_false_iff.mpr unseen] at whole ⊢
      simp at whole ⊢
      omega
  · exact counted

theorem HttpIdle.see_timers (s : HttpIdle) (socket : Nat) : (s.see socket).timers = s.timers ∧
    (s.see socket).timer = s.timer := by
  unfold HttpIdle.see
  split <;> exact ⟨rfl, rfl⟩

theorem IdleSound.request (sound : IdleSound c s) (socket exchange : Nat) (method url : Option Text) (complete : Bool) :
    IdleSound c (s.request c socket exchange method url complete) := by
  have counted := sound.counted.see socket
  have single : (s.see socket).Single := by
    obtain ⟨timers, timer⟩ := s.see_timers socket
    unfold HttpIdle.Single
    rw [timers, timer]
    exact sound.single
  have added : (((s.see socket).exchanges ++ [HttpExchange.mk exchange (HttpIdle.passiveRequest c method url) false false complete]).countP
      HttpExchange.unfinished : Int) = (s.see socket).exchanges.countP HttpExchange.unfinished + 1 := by
    rw [List.countP_append]
    rfl
  have active : (s.see socket).active + 1 = ((s.see socket).exchanges ++
      [HttpExchange.mk exchange (HttpIdle.passiveRequest c method url) false false complete]).countP HttpExchange.unfinished := by
    rw [added, counted.active]
  have completed : ∀ row ∈ (s.see socket).exchanges ++
      [HttpExchange.mk exchange (HttpIdle.passiveRequest c method url) false false complete], row.completed = !row.unfinished := by
    intro row member
    rcases List.mem_append.mp member with before | new
    · exact counted.completed row before
    · obtain rfl := List.mem_singleton.mp new
      rfl
  refine IdleCounted.clear ⟨counted.pending, active, completed, counted.tracked, counted.subscribed, counted.newest⟩
    single (.inl ?_)
  show (s.see socket).active + 1 ≠ 0
  rw [counted.active]
  omega

/-- An exchange that was unfinished is completed when it is finished. -/
theorem IdleSound.finish {done : HttpExchange → HttpExchange} (sound : IdleSound c s) (exchange : Nat) :
    IdleSound c (s.finish c done exchange now r) := by
  have counted := sound.counted
  unfold HttpIdle.finish
  dsimp only
  split
  · exact sound
  · next row found =>
    have changed : some (HttpIdle.after done row) = some (HttpIdle.after done row) := rfl
    obtain ⟨exchanges, updated⟩ := @exists_update?_of_find? _ _ (fun row => some (HttpIdle.after done row)) _ _ _ found
      changed
    rw [updated, Option.getD_some]
    obtain ⟨before, old, later, new, shape, first, changed, rfl⟩ := update?_eq_some updated
    obtain rfl : row = old := Option.some.inj (found.symm.trans first)
    cases changed
    have kept := List.find?_some found
    simp only [Bool.and_eq_true, Bool.not_eq_true'] at kept
    have listed : row ∈ s.exchanges := List.mem_of_find?_eq_some found
    have unfinished : row.unfinished = true := by
      have same := counted.completed row listed
      rw [kept.2] at same
      simpa using same.symm
    have completed : ∀ other ∈ before ++ HttpIdle.after done row :: later, other.completed = !other.unfinished := by
      intro other member
      rcases List.mem_append.mp member with front | back
      · exact counted.completed other (by rw [shape]; simp [front])
      · rcases List.mem_cons.mp back with rfl | back
        · simp [HttpIdle.after, HttpExchange.unfinished]
        · exact counted.completed other (by rw [shape]; simp [back])
    have whole := counted.active
    rw [shape] at whole
    simp only [List.countP_append, List.countP_cons, unfinished, if_true] at whole
    split
    · next complete =>
      have finished : (HttpIdle.after done row).unfinished = false := by
        have same := completed _ (List.mem_append_right _ List.mem_cons_self)
        rw [complete] at same
        simpa using same.symm
      have active : s.active - 1 = (before ++ HttpIdle.after done row :: later).countP HttpExchange.unfinished := by
        simp only [List.countP_append, List.countP_cons, finished, if_neg Bool.false_ne_true]
        omega
      refine IdleCounted.arm ⟨counted.pending, active, completed, counted.tracked, counted.subscribed, fun open' => ?_⟩
        sound.single
      obtain ⟨entry, latest, reading⟩ := counted.newest open'
      cases passive : row.passive with
      | false => exact ⟨.exchange false now, .new _ _, rfl⟩
      | true => exact ⟨entry, latest.cons fun never => never, reading⟩
    · next incomplete =>
      have still : (HttpIdle.after done row).unfinished = true := by
        have same := completed _ (List.mem_append_right _ List.mem_cons_self)
        rw [Bool.eq_false_iff.mpr incomplete] at same
        simpa using same.symm
      have active : s.active = (before ++ HttpIdle.after done row :: later).countP HttpExchange.unfinished := by
        simp only [List.countP_append, List.countP_cons, still, if_true]
        omega
      exact ⟨⟨counted.pending, active, completed, counted.tracked, counted.subscribed, counted.newest⟩, sound.single,
        sound.armed⟩

/-- The listener of the activity looks at the timers again. -/
theorem IdleCounted.notice {completed : Bool} (counted : IdleCounted { s with
      lastCompleted := if completed then now else s.lastCompleted }) (single : s.Single) : IdleSound c (s.notice c completed now r) := by
  unfold HttpIdle.notice
  split
  · next heard =>
    have cleared : HttpIdle.clear { s with lastCompleted := if completed then now else s.lastCompleted } =
        { s with lastCompleted := if completed then now else s.lastCompleted, timers := [] } :=
      HttpIdle.Single.clear single
    rw [cleared]
    exact IdleCounted.arm ⟨counted.pending, counted.active, counted.completed, counted.tracked, counted.subscribed,
      counted.newest⟩ (.inl rfl)
  · next deaf =>
    have closing : s.closing = true := by
      by_contra open'
      exact deaf (counted.subscribed (Bool.eq_false_iff.mpr open'))
    refine ⟨⟨counted.pending, counted.active, counted.completed, counted.tracked, counted.subscribed, fun open' => ?_⟩,
      single, fun _ _ open' => ?_⟩ <;> cases closing.symm.trans open'

theorem IdleSound.trackBegin (sound : IdleSound c s) (handler : Nat) (method url : Option Text) :
    IdleSound c (s.trackBegin c handler method url now r) := by
  have counted := sound.counted
  refine IdleCounted.notice ⟨counted.pending, counted.active, counted.completed, ?_, counted.subscribed, counted.newest⟩
    sound.single
  show s.tracked + 1 = _
  rw [counted.tracked, List.length_append]
  rfl

theorem IdleSound.trackEnd {handler : TrackedHandler} (sound : IdleSound c s) (member : handler ∈ s.handlers) :
    IdleSound c (s.trackEnd c handler now r) := by
  have counted := sound.counted
  have fewer := List.length_erase_of_mem member
  have positive := List.length_pos_of_mem member
  refine IdleCounted.notice ⟨counted.pending, counted.active, counted.completed, ?_, counted.subscribed, fun open' => ?_⟩
    sound.single
  · show s.tracked - 1 = _
    rw [counted.tracked, fewer]
    omega
  · obtain ⟨entry, latest, reading⟩ := counted.newest open'
    cases passive : handler.passive with
    | false => exact ⟨.handler false now, .new _ _, rfl⟩
    | true =>
      exact ⟨entry, latest.cons fun never => never, reading⟩

theorem IdleSound.fired {timer : Nat} (sound : IdleSound c s) (armed : timer ∈ s.timers.map Prod.fst) :
    s.timers.filter (fun other => decide (other.1 ≠ timer)) = [] := by
  rcases sound.single with none | ⟨id, delay, one, -⟩
  · rw [none]
    rfl
  · rw [one] at armed ⊢
    obtain rfl := List.mem_singleton.mp armed
    simp

theorem IdleSound.fire {timer : Nat} {lease : LeaseReading} {date : Rat} (sound : IdleSound c s)
    (armed : timer ∈ s.timers.map Prod.fst) : IdleSound c (s.fire c timer now lease date r) := by
  have counted := sound.counted
  have gone := sound.fired armed
  unfold HttpIdle.fire
  rw [gone]
  dsimp only
  split
  · next busy =>
    refine ⟨⟨counted.pending, counted.active, counted.completed, counted.tracked, counted.subscribed, counted.newest⟩,
      .inl rfl, fun _ _ open' _ pending active tracked => ?_⟩
    rcases busy with never | never | never | never
    · exact absurd active never
    · exact absurd pending never
    · exact absurd tracked never
    · cases never.symm.trans open'
  · split
    · exact IdleCounted.arm ⟨counted.pending, counted.active, counted.completed, counted.tracked, counted.subscribed,
        counted.newest⟩ (.inl rfl)
    · exact ⟨⟨counted.pending, counted.active, counted.completed, counted.tracked, fun never => (by cases never),
        fun never => (by cases never)⟩, .inl rfl, fun _ _ never => (by cases never)⟩

theorem IdleSound.serverClose (sound : IdleSound c s) (closing : s.closing = true) : IdleSound c s.serverClose := by
  have counted := sound.counted
  unfold HttpIdle.serverClose
  rw [sound.single.clear]
  exact ⟨⟨counted.pending, counted.active, counted.completed, counted.tracked,
    fun never => (by cases closing.symm.trans never), counted.newest⟩, .inl rfl,
    fun _ _ never => (by cases closing.symm.trans never)⟩

theorem httpIdleStep_sound (sound : IdleSound c s) (taken : httpIdleStep c s event = some t) : IdleSound c t := by
  cases event with
  | listening now r =>
    cases taken
    exact sound.listens
  | connection socket =>
    simp only [httpIdleStep] at taken
    split at taken
    · cases taken
    · cases taken
      exact sound.connection socket
  | socketClose socket r =>
    simp only [httpIdleStep] at taken
    split at taken
    · next there =>
      cases taken
      exact sound.socketClose there
    · cases taken
  | request socket exchange method url complete =>
    simp only [httpIdleStep] at taken
    split at taken
    · cases taken
    · cases taken
      exact sound.request socket exchange method url complete
  | responseFinish exchange now r | responseClose exchange now r | requestEnd exchange now r
  | requestClose exchange now r =>
    cases taken
    exact sound.finish exchange
  | trackBegin handler method url now r =>
    cases taken
    exact sound.trackBegin handler method url
  | trackEnd handler now r =>
    simp only [httpIdleStep] at taken
    split at taken
    · next member =>
      cases taken
      exact sound.trackEnd member
    · cases taken
  | fires timer now lease date r =>
    simp only [httpIdleStep] at taken
    split at taken
    · next armed =>
      cases taken
      exact sound.fire armed
    · cases taken
  | serverClose =>
    simp only [httpIdleStep] at taken
    split at taken
    · next closing =>
      cases taken
      exact sound.serverClose closing
    · cases taken

theorem idleSound_new (now : Rat) (handlers : List TrackedHandler) : IdleSound c (.new now handlers) where
  counted := ⟨rfl, rfl, fun row never => absurd never List.not_mem_nil, rfl, fun _ => rfl,
    fun _ => ⟨.started now, .new _ _, rfl⟩⟩
  single := .inl rfl
  armed _ never := by cases never

theorem reachable_idleSound (reached : Reachable (httpIdleMachine c) s) : IdleSound c s := by
  refine reached.induction (P := fun s => IdleSound c s) ?_ fun _ taken held => httpIdleStep_sound held taken
  rintro s ⟨now, handlers, rfl⟩
  exact idleSound_new now handlers

theorem IdleSound.exact (sound : IdleSound c s) : IdleExact c s where
  pending := sound.counted.pending
  active := sound.counted.active
  tracked := sound.counted.tracked
  single := by
    rcases sound.single with none | ⟨id, delay, one, -⟩
    · rw [none]
      exact Nat.zero_le 1
    · rw [one]
      exact Nat.le_refl 1
  armed := sound.armed

end Invariant

section Exit

@[simp] theorem HttpIdle.arm_closing (c : HttpIdleConfiguration) (r : ArmReadings) (s : HttpIdle) :
    (HttpIdle.arm c r s).closing = s.closing := by
  unfold HttpIdle.arm
  dsimp only
  split
  · rfl
  · split
    · split <;> rfl
    · rfl

@[simp] theorem HttpIdle.see_closing (socket : Nat) (s : HttpIdle) : (s.see socket).closing = s.closing := by
  unfold HttpIdle.see
  split <;> rfl

@[simp] theorem HttpIdle.finish_closing (done : HttpExchange → HttpExchange) (exchange : Nat) (s : HttpIdle) :
    (s.finish c done exchange now r).closing = s.closing := by
  unfold HttpIdle.finish
  dsimp only
  split
  · rfl
  · split
    · exact HttpIdle.arm_closing c r _
    · rfl

@[simp] theorem HttpIdle.notice_closing (completed : Bool) (s : HttpIdle) :
    (s.notice c completed now r).closing = s.closing := by
  unfold HttpIdle.notice
  split
  · exact HttpIdle.arm_closing c r _
  · rfl

/-- A timer closes the server only when nothing is left to do and the idle time is over. -/
theorem HttpIdle.fire_closes {timer : Nat} {lease : LeaseReading} {date : Rat} (open' : s.closing = false)
    (closed : (s.fire c timer now lease date r).closing = true) : s.active = 0 ∧ s.pending = 0 ∧ s.tracked = 0 ∧
      c.timeoutMs ≤ now - s.lastCompleted ∧ lease.after date = false := by
  unfold HttpIdle.fire at closed
  dsimp only at closed
  split at closed
  · cases open'.symm.trans closed
  · next zero =>
    split at closed
    · rw [HttpIdle.arm_closing] at closed
      cases open'.symm.trans closed
    · next passed =>
      rw [not_or, not_or, not_or] at zero
      rw [not_or, Rat.not_lt, Bool.not_eq_true] at passed
      exact ⟨not_not.mp zero.1, not_not.mp zero.2.1, not_not.mp zero.2.2.1, passed.1, passed.2⟩

theorem closes_only_fires (taken : httpIdleStep c s event = some t) (closed : t.closing = true)
    (open' : s.closing = false) : ∃ timer now lease date r, event = .fires timer now lease date r ∧
      t = s.fire c timer now lease date r := by
  have same : t.closing = s.closing → False := fun same => by
    rw [same, open'] at closed
    cases closed
  cases event with
  | fires timer now lease date r =>
    simp only [httpIdleStep] at taken
    split at taken
    · exact ⟨timer, now, lease, date, r, rfl, (Option.some.inj taken).symm⟩
    · cases taken
  | listening now r | trackBegin handler method url now r =>
    cases taken
    exact absurd (by simp [HttpIdle.listens, HttpIdle.trackBegin]) same
  | responseFinish exchange now r | responseClose exchange now r | requestEnd exchange now r
  | requestClose exchange now r =>
    cases taken
    exact absurd (HttpIdle.finish_closing _ _ _) same
  | connection socket | socketClose socket r | trackEnd handler now r | request socket exchange method url complete =>
    simp only [httpIdleStep] at taken
    split at taken
    · cases taken <;>
        exact absurd (by simp [HttpIdle.socketClose, HttpIdle.trackEnd]) same
    · cases taken <;>
        exact absurd (by simp [HttpIdle.connection, HttpIdle.request, HttpIdle.clear]) same
  | serverClose =>
    simp only [httpIdleStep] at taken
    split at taken
    · next closing => cases open'.symm.trans closing
    · cases taken

/-- A timer that fires closes the server when nothing is left to do and the idle time and the lease are over. -/
theorem HttpIdle.fire_closing {timer : Nat} {lease : LeaseReading} {date : Rat}
    (zero : s.active = 0 ∧ s.pending = 0 ∧ s.tracked = 0) (passed : c.timeoutMs ≤ now - s.lastCompleted)
    (free : lease.after date = false) : (s.fire c timer now lease date r).closing = true := by
  unfold HttpIdle.fire
  dsimp only
  split
  · next busy =>
    rcases busy with never | never | never | closing
    · exact absurd zero.1 never
    · exact absurd zero.2.1 never
    · exact absurd zero.2.2 never
    · exact closing
  · rw [if_neg]
    rw [not_or, Rat.not_lt, Bool.not_eq_true]
    exact ⟨passed, free⟩

/-- An armed timer that fires closes the server when nothing is left to do and, since what counted last, the idle time and
the lease are over. -/
theorem IdleSound.closes {timer : Nat} {lease : LeaseReading} {date : Rat} (sound : IdleSound c s)
    (armed : timer ∈ s.timers.map Prod.fst) (zero : s.active = 0 ∧ s.pending = 0 ∧ s.tracked = 0)
    (passed : ∀ entry, Latest HttpIdleEntry.Counts entry s.log → c.timeoutMs ≤ now - entry.at)
    (free : lease.after date = false) :
    ∃ t, httpIdleStep c s (.fires timer now lease date r) = some t ∧ t.closing = true := by
  refine ⟨s.fire c timer now lease date r, if_pos armed, ?_⟩
  cases closing : s.closing with
  | true =>
    unfold HttpIdle.fire
    rw [if_pos (.inr (.inr (.inr closing)))]
    exact closing
  | false =>
    obtain ⟨entry, latest, reading⟩ := sound.counted.newest closing
    exact HttpIdle.fire_closing zero (reading ▸ passed entry latest) free

/-- In every state of every run the counters are exact and a timer is armed when nothing is left to do; the server closes
for idleness only when nothing is left to do, the idle time since what counted last is over, and the lease too, and a timer
that fires then does close it. -/
theorem http_idle_exact (reached : Reachable (httpIdleMachine c) s) : IdleExact c s ∧
    (∀ event t, httpIdleStep c s event = some t → t.closing = true → s.closing = false →
      s.active = 0 ∧ s.pending = 0 ∧ s.tracked = 0 ∧ ∃ timer now lease date r entry,
        event = .fires timer now lease date r ∧ Latest HttpIdleEntry.Counts entry s.log ∧
          c.timeoutMs ≤ now - entry.at ∧ lease.after date = false) ∧
    ∀ timer now lease date r, timer ∈ s.timers.map Prod.fst → s.active = 0 ∧ s.pending = 0 ∧ s.tracked = 0 →
      (∀ entry, Latest HttpIdleEntry.Counts entry s.log → c.timeoutMs ≤ now - entry.at) → lease.after date = false →
        ∃ t, httpIdleStep c s (.fires timer now lease date r) = some t ∧ t.closing = true := by
  have sound := reachable_idleSound reached
  refine ⟨sound.exact, fun event t taken closed open' => ?_, fun timer now lease date r armed zero passed free =>
    sound.closes armed zero passed free⟩
  obtain ⟨timer, now, lease, date, r, rfl, rfl⟩ := closes_only_fires taken closed open'
  obtain ⟨active, pending, tracked, passed, free⟩ := HttpIdle.fire_closes open' closed
  obtain ⟨entry, latest, reading⟩ := sound.counted.newest open'
  exact ⟨active, pending, tracked, timer, now, lease, date, r, entry, rfl, latest, reading ▸ passed, free⟩

/-- A service with one exchange that has ended. -/
def oneExchange : HttpIdleConfiguration := ⟨true, 30000, some⟩

def oneExchangeEvents : List HttpIdleEvent :=
  [.listening 1 ⟨.finite 0, 1, 100⟩, .connection 1, .request 1 1 (some "GET".toList) (some "/".toList) false,
    .trackBegin 1 (some "GET".toList) (some "/".toList) 2 ⟨.finite 0, 2, 101⟩, .responseFinish 1 3 ⟨.finite 0, 3, 102⟩,
    .requestEnd 1 4 ⟨.finite 0, 4, 103⟩, .trackEnd ⟨1, false⟩ 5 ⟨.finite 0, 5, 104⟩]

/-- A timer is armed after the exchange; when it fires half a minute later it closes the server. -/
theorem http_idle_exact_oneExchange : ∃ s t timer, Reachable (httpIdleMachine oneExchange) s ∧
    timer ∈ s.timers.map Prod.fst ∧ s.closing = false ∧
    httpIdleStep oneExchange s (.fires timer 30005 (.finite 0) 30104 ⟨.finite 0, 30005, 30104⟩) = some t ∧
    t.closing = true := by
  have replayed : (replay? (httpIdleStep oneExchange) (.new 0 []) oneExchangeEvents).any (fun s => decide
      ((s.listening = true ∧ s.closing = false ∧ s.threw = false) ∧ (s.active = 0 ∧ s.pending = 0 ∧ s.tracked = 0) ∧
        ∀ entry ∈ s.log, entry.at ≤ 5)) = true := by decide +kernel
  obtain ⟨s, run, checked⟩ := exists_run_of_replay? replayed
  obtain ⟨⟨listening, open', sane⟩, zero, early⟩ := of_decide_eq_true checked
  have reached : Reachable (httpIdleMachine oneExchange) s := run.reachable (.init ⟨0, [], rfl⟩)
  obtain ⟨exact', -, closes⟩ := http_idle_exact reached
  obtain ⟨⟨timer, delay⟩, armed⟩ := List.exists_mem_of_ne_nil _
    (exact'.armed rfl listening open' sane zero.2.1 zero.1 zero.2.2)
  have there : timer ∈ s.timers.map Prod.fst := List.mem_map_of_mem armed
  obtain ⟨t, fired, closed⟩ := closes timer 30005 (.finite 0) 30104 ⟨.finite 0, 30005, 30104⟩ there zero
    (fun entry latest => by
      have before := early entry latest.mem
      show (30000 : Rat) ≤ 30005 - entry.at
      linarith) (by decide)
  exact ⟨s, t, timer, reached, there, open', fired, closed⟩

end Exit

end LatexRenderer
