import Mathlib.Tactic.Basic

/-! # Processes whose every step may fail or be the last

A `Process` is a program over a shared state, cut at the steps at which the outside world can see it
or stop it: every `perform` is one such step, named by its site. The environment answers a step with a
`Reply`: it takes effect, it fails before its effect, or it takes effect and the caller is told that it
failed. A crash is the environment never answering.

`wp` is the assertion that a process keeps its promises whatever the environment answers: a condition
at every visited step (which is what a crash there leaves behind), one for a normal return and one for
an error. The rules follow the syntax of a program: sequencing, error handling and loops.
-/

namespace Machine

/-- How the environment answers one step. -/
inductive Reply (ι : Type) where
  | done (answer : ι)
  | refused
  | lost (answer : ι)
deriving DecidableEq, Repr

/-- The error that a step raises when the environment lets it fail. -/
class Fault (ε : Type) where
  fault : ε

/-- A program over a shared state `σ` whose steps are named by sites. -/
inductive Process (S σ ι ε α : Type) where
  | ret (value : α)
  | raise (error : ε)
  | perform (site : S) (effect : Reply ι → σ → σ) (next : Reply ι → σ → Process S σ ι ε α)

variable {S σ ι ε α β : Type}

/-- What an answered step computes: its result for the caller and the state it leaves. -/
def Reply.apply [Fault ε] (f : ι → σ → Except ε (β × σ)) : Reply ι → σ → Except ε β × σ
  | .done answer, s =>
    match f answer s with
    | .ok (value, t) => (.ok value, t)
    | .error error => (.error error, s)
  | .refused, s => (.error Fault.fault, s)
  | .lost answer, s =>
    match f answer s with
    | .ok (_, t) => (.error Fault.fault, t)
    | .error error => (.error error, s)

namespace Process

/-- The process that ends with a result. -/
def ofExcept : Except ε α → Process S σ ι ε α
  | .ok value => .ret value
  | .error error => .raise error

protected def bind : Process S σ ι ε α → (α → Process S σ ι ε β) → Process S σ ι ε β
  | .ret value, f => f value
  | .raise error, _ => .raise error
  | .perform site effect next, f => .perform site effect fun reply s => (next reply s).bind f

/-- `try` … `catch`: an error of the body is handled, a crash is not. -/
def handle : Process S σ ι ε α → (ε → Process S σ ι ε α) → Process S σ ι ε α
  | .ret value, _ => .ret value
  | .raise error, h => h error
  | .perform site effect next, h => .perform site effect fun reply s => (next reply s).handle h

instance : Monad (Process S σ ι ε) where
  pure := .ret
  bind := Process.bind

instance : MonadExceptOf ε (Process S σ ι ε) where
  throw := .raise
  tryCatch := .handle

/-- One step. It may read and change the state, use what the environment answers, and fail. -/
def act [Fault ε] (site : S) (f : ι → σ → Except ε (β × σ)) : Process S σ ι ε β :=
  .perform site (fun reply s => (reply.apply f s).2) fun reply s => ofExcept (reply.apply f s).1

/-- A step that only reads. -/
def ask [Fault ε] (site : S) (f : ι → σ → Except ε β) : Process S σ ι ε β :=
  act site fun answer s => (f answer s).map fun value => (value, s)

/-- A step that only changes the state. -/
def modify [Fault ε] (site : S) (f : σ → σ) : Process S σ ι ε Unit :=
  act site fun _ s => .ok ((), f s)

/-- A check of the code itself; it is no step of its own. -/
def require (condition : Prop) [Decidable condition] (error : ε) : Process S σ ι ε Unit :=
  if condition then .ret () else .raise error

/-- `for … of`. -/
def each (items : List β) (body : β → Process S σ ι ε Unit) : Process S σ ι ε Unit :=
  match items with
  | [] => .ret ()
  | item :: rest => (body item).bind fun _ => each rest body

/-- Run a process and tell whether it succeeded; an error goes no further. -/
def attempt (p : Process S σ ι ε Unit) : Process S σ ι ε Bool :=
  (p.bind fun _ => .ret true).handle fun _ => .ret false

/-- Run a process and go on with its result, be it a value or an error. -/
def outcome (p : Process S σ ι ε α) : Process S σ ι ε (Except ε α) :=
  (p.bind fun value => .ret (.ok value)).handle fun error => .ret (.error error)

/-- A look at the state that never fails: when the environment refuses it, nothing is seen. -/
def probe (site : S) (f : σ → Bool) : Process S σ ι ε Bool :=
  .perform site (fun _ s => s) fun reply s =>
    .ret (match reply with
      | .done _ => f s
      | _ => false)

/-- A look at what the process itself holds; it cannot fail. -/
def view (site : S) (f : σ → β) : Process S σ ι ε β := .perform site (fun _ s => s) fun _ s => .ret (f s)

/-- A step that cannot fail. -/
def mark (site : S) (f : σ → σ) : Process S σ ι ε Unit :=
  .perform site (fun _ s => f s) fun _ _ => .ret ()

/-- What a call gives when it succeeds; a call that fails has no effect. -/
def taken (f : ι → σ → Option (β × σ)) : Reply ι → σ → Option (β × σ)
  | .done answer, s => f answer s
  | .refused, _ => none
  | .lost _, _ => none

/-- A call that either takes effect or fails, with an error of its own and a note of the failure in the state. -/
def call (site : S) (error : ε) (note : σ → σ) (f : ι → σ → Option (β × σ)) : Process S σ ι ε β :=
  .perform site (fun reply s => ((taken f reply s).map Prod.snd).getD (note s)) fun reply s =>
    match taken f reply s with
    | some (value, _) => .ret value
    | none => .raise error

/-- Run a process with the given answers, one for each step. -/
def replay? : Process S σ ι ε α → List (Reply ι) → σ → Option (Except ε α × σ)
  | .ret value, [], s => some (.ok value, s)
  | .raise error, [], s => some (.error error, s)
  | .perform _ effect next, reply :: replies, s => replay? (next reply s) replies (effect reply s)
  | _, _, _ => none

/-- Attempt the body for every item; the items it failed for. -/
def attemptEach (items : List β) (body : β → Process S σ ι ε Unit) : Process S σ ι ε (List β) :=
  match items with
  | [] => .ret []
  | item :: rest =>
    (attempt (body item)).bind fun succeeded =>
      (attemptEach rest body).bind fun failed => .ret (if succeeded then failed else item :: failed)

/-- Whatever the environment answers within `allowed`, the process visits a step only in a state that
satisfies `C`, returns only in one that satisfies `Q` and fails only in one that satisfies `E`. -/
def wp (allowed : S → Reply ι → Prop) (Q : α → σ → Prop) (E : ε → σ → Prop) (C : S → σ → Prop) :
    Process S σ ι ε α → σ → Prop
  | .ret value, s => Q value s
  | .raise error, s => E error s
  | .perform site effect next, s =>
    C site s ∧ ∀ reply, allowed site reply → wp allowed Q E C (next reply s) (effect reply s)

/-- The environment may answer any step in any way. -/
abbrev anyAnswer : S → Reply ι → Prop := fun _ _ => True

variable {allowed : S → Reply ι → Prop} {Q Q' : α → σ → Prop} {E E' : ε → σ → Prop}
  {C C' : S → σ → Prop} {s : σ}

@[simp] theorem wp_ret {value : α} : wp allowed Q E C (.ret value) s ↔ Q value s := Iff.rfl

@[simp] theorem wp_pure {value : α} :
    wp allowed Q E C (pure value : Process S σ ι ε α) s ↔ Q value s := Iff.rfl

@[simp] theorem wp_raise {error : ε} :
    wp allowed Q E C (.raise error : Process S σ ι ε α) s ↔ E error s := Iff.rfl

@[simp] theorem wp_throw {error : ε} :
    wp allowed Q E C (throw error : Process S σ ι ε α) s ↔ E error s := Iff.rfl

/-- Sequencing: the rest is asserted of whatever the first part returns. -/
@[simp] theorem wp_bind {R : β → σ → Prop} {p : Process S σ ι ε α} {f : α → Process S σ ι ε β} :
    wp allowed R E C (p >>= f) s ↔ wp allowed (fun value => wp allowed R E C (f value)) E C p s := by
  show wp allowed R E C (p.bind f) s ↔ _
  induction p generalizing s with
  | ret value => rfl
  | raise error => rfl
  | perform site effect next ih =>
    simp only [Process.bind, wp]
    exact and_congr_right fun _ => forall_congr' fun reply => imp_congr_right fun _ => ih reply s

/-- Error handling: the handler is asserted of whatever the body raises. -/
@[simp] theorem wp_tryCatch {p : Process S σ ι ε α} {h : ε → Process S σ ι ε α} :
    wp allowed Q E C (tryCatch p h) s ↔
      wp allowed Q (fun error => wp allowed Q E C (h error)) C p s := by
  show wp allowed Q E C (p.handle h) s ↔ _
  induction p generalizing s with
  | ret value => rfl
  | raise error => rfl
  | perform site effect next ih =>
    simp only [handle, wp]
    exact and_congr_right fun _ => forall_congr' fun reply => imp_congr_right fun _ => ih reply s

@[simp] theorem wp_handle {p : Process S σ ι ε α} {h : ε → Process S σ ι ε α} :
    wp allowed Q E C (p.handle h) s ↔
      wp allowed Q (fun error => wp allowed Q E C (h error)) C p s :=
  wp_tryCatch

@[simp] theorem wp_ofExcept {result : Except ε α} :
    wp allowed Q E C (ofExcept result : Process S σ ι ε α) s ↔
      (∀ value, result = .ok value → Q value s) ∧ ∀ error, result = .error error → E error s := by
  cases result <;> simp [ofExcept]

/-- One step: its site is visited, and every allowed answer leads on. -/
theorem wp_act [Fault ε] {R : β → σ → Prop} {site : S} {f : ι → σ → Except ε (β × σ)} :
    wp allowed R E C (act site f) s ↔
      C site s ∧ ∀ reply, allowed site reply →
        wp allowed R E C (ofExcept (reply.apply f s).1) (reply.apply f s).2 := Iff.rfl

@[simp] theorem wp_require {R : Unit → σ → Prop} {condition : Prop} [Decidable condition] {error : ε} :
    wp allowed R E C (require condition error) s ↔
      (condition → R () s) ∧ (¬ condition → E error s) := by
  unfold require
  split <;> simp_all

@[simp] theorem wp_ite {condition : Prop} [Decidable condition] {p q : Process S σ ι ε α} :
    wp allowed Q E C (if condition then p else q) s ↔
      (condition → wp allowed Q E C p s) ∧ (¬ condition → wp allowed Q E C q s) := by
  split <;> simp_all

/-- A weaker promise follows from a stronger one. -/
theorem wp.mono {p : Process S σ ι ε α} (strong : wp allowed Q E C p s)
    (returns : ∀ value t, Q value t → Q' value t) (raises : ∀ error t, E error t → E' error t)
    (visits : ∀ site t, C site t → C' site t) : wp allowed Q' E' C' p s := by
  induction p generalizing s with
  | ret value => exact returns value s strong
  | raise error => exact raises error s strong
  | perform site effect next ih =>
    exact ⟨visits site s strong.1, fun reply answered => ih reply s (strong.2 reply answered)⟩

/-- Fewer answers need fewer promises. -/
theorem wp.restrict {fewer : S → Reply ι → Prop} {p : Process S σ ι ε α}
    (strong : wp allowed Q E C p s) (less : ∀ site reply, fewer site reply → allowed site reply) :
    wp fewer Q E C p s := by
  induction p generalizing s with
  | ret value => exact strong
  | raise error => exact strong
  | perform site effect next ih =>
    exact ⟨strong.1, fun reply answered => ih reply s (strong.2 reply (less site reply answered))⟩

/-- Two promises hold together. -/
theorem wp.and {p : Process S σ ι ε α} (first : wp allowed Q E C p s)
    (second : wp allowed Q' E' C' p s) :
    wp allowed (fun value t => Q value t ∧ Q' value t) (fun error t => E error t ∧ E' error t)
      (fun site t => C site t ∧ C' site t) p s := by
  induction p generalizing s with
  | ret value => exact ⟨first, second⟩
  | raise error => exact ⟨first, second⟩
  | perform site effect next ih =>
    exact ⟨⟨first.1, second.1⟩,
      fun reply answered => ih reply s (first.2 reply answered) (second.2 reply answered)⟩

/-- The loop rule: what holds before the loop and is kept by every turn holds after it. -/
theorem wp_each {items : List β} {body : β → Process S σ ι ε Unit} {P : σ → Prop}
    (turn : ∀ item ∈ items, ∀ t, P t → wp allowed (fun _ => P) E C (body item) t) (start : P s) :
    wp allowed (fun _ => P) E C (each items body) s := by
  induction items generalizing s with
  | nil => exact start
  | cons item rest ih =>
    refine wp_bind.mpr ?_
    refine (turn item List.mem_cons_self s start).mono (fun _ t held => ?_) (fun _ _ held => held)
      fun _ _ held => held
    exact ih (fun other member => turn other (List.mem_cons_of_mem _ member)) held

/-- A loop does not return when one of its turns does not and those before it leave the state alone. -/
theorem wp_each_never {items : List β} {body : β → Process S σ ι ε Unit} {item : β}
    (turn : ∀ other ∈ items, wp allowed (fun _ t => t = s) E C (body other) s) (member : item ∈ items)
    (never : wp allowed (fun _ _ => False) E C (body item) s) :
    wp allowed (fun _ _ => False) E C (each items body) s := by
  induction items with
  | nil => cases member
  | cons first rest ih =>
    refine wp_bind.mpr ?_
    rcases List.mem_cons.mp member with rfl | later
    · exact never.mono (fun _ _ impossible => impossible.elim) (fun _ _ held => held) fun _ _ held => held
    · refine (turn first List.mem_cons_self).mono ?_ (fun _ _ held => held) fun _ _ held => held
      rintro _ t rfl
      exact ih (fun other listed => turn other (List.mem_cons_of_mem _ listed)) later

/-- The loop rule for turns that each leave something done, which later turns do not undo. -/
theorem wp_each_done {items : List β} {body : β → Process S σ ι ε Unit} {P : σ → Prop}
    {D : β → σ → Prop}
    (turn : ∀ item ∈ items, ∀ t, P t →
      wp allowed (fun _ u => P u ∧ D item u ∧ ∀ other, D other t → D other u) E C (body item) t)
    (start : P s) :
    wp allowed (fun _ t => P t ∧ (∀ item ∈ items, D item t) ∧ ∀ other, D other s → D other t) E C
      (each items body) s := by
  induction items generalizing s with
  | nil => exact ⟨start, by simp, fun _ held => held⟩
  | cons item rest ih =>
    refine wp_bind.mpr ?_
    refine (turn item List.mem_cons_self s start).mono ?_ (fun _ _ held => held) fun _ _ held => held
    rintro _ t ⟨held, done, stays⟩
    refine (ih (fun other member => turn other (List.mem_cons_of_mem _ member)) held).mono ?_
      (fun _ _ held => held) fun _ _ held => held
    rintro _ u ⟨held, all, later⟩
    refine ⟨held, fun other member => ?_, fun other before => later other (stays other before)⟩
    rcases List.mem_cons.mp member with rfl | member
    · exact later other done
    · exact all other member

/-- An attempt goes on from the end of its body, whatever the end is. -/
@[simp] theorem wp_attempt {R : Bool → σ → Prop} {p : Process S σ ι ε Unit} :
    wp allowed R E C (attempt p) s ↔
      wp allowed (fun _ => R true) (fun _ => R false) C p s := by
  unfold attempt
  exact wp_handle.trans wp_bind

/-- An outcome is asserted of both ends of its process. -/
@[simp] theorem wp_outcome {R : Except ε α → σ → Prop} {p : Process S σ ι ε α} :
    wp allowed R E C (outcome p) s ↔
      wp allowed (fun value => R (.ok value)) (fun error => R (.error error)) C p s := by
  unfold outcome
  exact wp_handle.trans wp_bind

@[simp] theorem wp_mark {R : Unit → σ → Prop} {site : S} {f : σ → σ} :
    wp allowed R E C (mark site f) s ↔ C site s ∧ ((∃ reply, allowed site reply) → R () (f s)) := by
  refine and_congr_right fun _ => ⟨fun held ⟨reply, answered⟩ => held reply answered, ?_⟩
  exact fun held reply answered => held ⟨reply, answered⟩

/-- A look sees what is there, or nothing. -/
theorem wp_probe {R : Bool → σ → Prop} {site : S} {f : σ → Bool} (visit : C site s) (seen : R (f s) s)
    (missed : R false s) : wp allowed R E C (probe site f) s := by
  refine ⟨visit, fun reply _ => ?_⟩
  cases reply with
  | done answer => exact seen
  | refused => exact missed
  | lost answer => exact missed

/-- The loop rule for attempts: a turn may fail, and then its item is reported; the items that are not
reported are done, and stay done. -/
theorem wp_attemptEach {items : List β} {body : β → Process S σ ι ε Unit} {P : σ → Prop}
    {D : β → σ → Prop}
    (turn : ∀ item ∈ items, ∀ t, P t →
      wp allowed (fun _ u => P u ∧ D item u ∧ ∀ other, D other t → D other u)
        (fun _ u => P u ∧ ∀ other, D other t → D other u) C (body item) t)
    (start : P s) :
    wp allowed
      (fun failed t => P t ∧ (∀ item ∈ failed, item ∈ items) ∧ (∀ item ∈ items, item ∈ failed ∨ D item t) ∧
        ∀ other, D other s → D other t) E C (attemptEach items body) s := by
  induction items generalizing s with
  | nil => exact ⟨start, by simp, by simp, fun _ held => held⟩
  | cons item rest ih =>
    have others : ∀ other ∈ rest, ∀ t, P t →
        wp allowed (fun _ u => P u ∧ D other u ∧ ∀ third, D third t → D third u)
          (fun _ u => P u ∧ ∀ third, D third t → D third u) C (body other) t :=
      fun other member => turn other (List.mem_cons_of_mem _ member)
    refine wp_bind.mpr (wp_attempt.mpr ?_)
    refine (turn item List.mem_cons_self s start).mono ?_ ?_ fun _ _ held => held
    · rintro _ u ⟨held, done, stays⟩
      refine wp_bind.mpr ((ih others held).mono ?_ (fun _ _ never => never) fun _ _ held => held)
      rintro failed t ⟨held, within, all, later⟩
      refine ⟨held, fun other member => List.mem_cons_of_mem _ (within other member), ?_,
        fun other before => later other (stays other before)⟩
      intro other member
      rcases List.mem_cons.mp member with rfl | member
      · exact .inr (later other done)
      · exact all other member
    · rintro _ u ⟨held, stays⟩
      refine wp_bind.mpr ((ih others held).mono ?_ (fun _ _ never => never) fun _ _ held => held)
      rintro failed t ⟨held, within, all, later⟩
      refine ⟨held, ?_, ?_, fun other before => later other (stays other before)⟩
      · intro other member
        rcases List.mem_cons.mp member with rfl | member
        · exact List.mem_cons_self
        · exact List.mem_cons_of_mem _ (within other member)
      · intro other member
        rcases List.mem_cons.mp member with rfl | member
        · exact .inl List.mem_cons_self
        · exact (all other member).imp (List.mem_cons_of_mem _) id

/-- A step that only reads leaves the state alone, whatever is answered. -/
theorem wp_ask [Fault ε] {R : β → σ → Prop} {site : S} {f : ι → σ → Except ε β} (visit : C site s)
    (fails : ∀ error, E error s)
    (reads : ∀ answer value, f answer s = .ok value → R value s) :
    wp allowed R E C (ask site f) s := by
  refine wp_act.mpr ⟨visit, fun reply _ => ?_⟩
  cases reply with
  | done answer =>
    cases read : f answer s with
    | error error => simpa [Reply.apply, read, Except.map, ofExcept] using fails error
    | ok value => simpa [Reply.apply, read, Except.map, ofExcept] using reads answer value read
  | refused => exact fails _
  | lost answer =>
    cases read : f answer s with
    | error error => simpa [Reply.apply, read, Except.map, ofExcept] using fails error
    | ok value => simpa [Reply.apply, read, Except.map, ofExcept] using fails Fault.fault

/-- A step that only changes the state either changes it or has not yet. -/
theorem wp_modify [Fault ε] {R : Unit → σ → Prop} {site : S} {f : σ → σ} (visit : C site s)
    (before : ∀ error, E error s) (after : ∀ error, E error (f s)) (changed : R () (f s)) :
    wp allowed R E C (modify site f) s := by
  refine wp_act.mpr ⟨visit, fun reply _ => ?_⟩
  cases reply with
  | done answer => exact changed
  | refused => exact before _
  | lost answer => exact after _

/-- A call is either noted as failed or takes effect. -/
theorem wp_call {R : β → σ → Prop} {site : S} {error : ε} {note : σ → σ} {f : ι → σ → Option (β × σ)}
    (visit : C site s) (fails : E error (note s))
    (moves : ∀ answer value t, f answer s = some (value, t) → R value t) :
    wp allowed R E C (call site error note f) s := by
  refine ⟨visit, fun reply _ => ?_⟩
  cases read : taken f reply s with
  | none => simpa [read] using fails
  | some pair =>
    cases reply with
    | done answer => simpa [read] using moves answer pair.1 pair.2 read
    | refused => cases read
    | lost answer => cases read

/-- A promise for every answer is kept in every run with given answers. -/
theorem wp.replay {p : Process S σ ι ε α} {replies : List (Reply ι)} {result : Except ε α} {t : σ}
    (promise : wp anyAnswer Q E C p s) (ran : p.replay? replies s = some (result, t)) :
    (∀ value, result = .ok value → Q value t) ∧ ∀ error, result = .error error → E error t := by
  induction p generalizing s replies with
  | ret value =>
    cases replies with
    | nil =>
      cases ran
      exact ⟨fun _ same => by cases same; exact promise, fun _ never => by cases never⟩
    | cons reply replies => cases ran
  | raise error =>
    cases replies with
    | nil =>
      cases ran
      exact ⟨fun _ never => (by cases never), fun _ same => by cases same; exact promise⟩
    | cons reply replies => cases ran
  | perform site effect next ih =>
    cases replies with
    | nil => cases ran
    | cons reply replies => exact ih reply s (promise.2 reply trivial) ran

/-- Nothing is promised. -/
theorem wp_true {p : Process S σ ι ε α} :
    wp allowed (fun _ _ => True) (fun _ _ => True) (fun _ _ => True) p s := by
  induction p generalizing s with
  | ret value => trivial
  | raise error => trivial
  | perform site effect next ih => exact ⟨trivial, fun reply _ => ih reply s⟩

/-- A step that only changes the state and that is always answered with success. -/
theorem wp_modify_done [Fault ε] {R : Unit → σ → Prop} {site : S} {f : σ → σ} (visit : C site s)
    (done : ∀ reply, allowed site reply → ∃ answer, reply = .done answer) (changed : R () (f s)) :
    wp allowed R E C (modify site f) s := by
  refine wp_act.mpr ⟨visit, fun reply answered => ?_⟩
  obtain ⟨answer, rfl⟩ := done reply answered
  exact changed

/-- A step that only reads and that is always answered with success. -/
theorem wp_ask_done [Fault ε] {R : β → σ → Prop} {site : S} {f : ι → σ → Except ε β} (visit : C site s)
    (done : ∀ reply, allowed site reply → ∃ answer, reply = .done answer)
    (reads : ∀ answer, ∃ value, f answer s = .ok value ∧ R value s) :
    wp allowed R E C (ask site f) s := by
  refine wp_act.mpr ⟨visit, fun reply answered => ?_⟩
  obtain ⟨answer, rfl⟩ := done reply answered
  obtain ⟨value, read, holds⟩ := reads answer
  simpa [Reply.apply, read, Except.map, ofExcept] using holds

/-- However its steps are answered, the process returns as `Q` and fails as `E` says. -/
def Ends (p : Process S σ ι ε α) (Q : α → σ → Prop) (E : ε → σ → Prop) (s : σ) : Prop :=
  p.wp anyAnswer Q E (fun _ _ => True) s

section Ends

variable {Q Q' : α → σ → Prop} {E E' : ε → σ → Prop} {s : σ} {p : Process S σ ι ε α} {site : S} {error : ε}

theorem Ends.bind {R : β → σ → Prop} {f : α → Process S σ ι ε β} (first : Ends p (fun value t => Ends (f value) R E t) E s) :
    Ends (p >>= f) R E s := wp_bind.mpr first

theorem Ends.mono (strong : Ends p Q E s) (returns : ∀ value t, Q value t → Q' value t)
    (raises : ∀ error t, E error t → E' error t) : Ends p Q' E' s :=
  wp.mono strong returns raises fun _ _ _ => trivial

theorem ends_pure {value : α} (holds : Q value s) : Ends (pure value : Process S σ ι ε α) Q E s := holds

theorem ends_throw (fails : E error s) : Ends (throw error : Process S σ ι ε α) Q E s := fails

theorem ends_require {R : Unit → σ → Prop} {condition : Prop} [Decidable condition] (holds : condition → R () s)
    (fails : E error s) : Ends (require condition error : Process S σ ι ε Unit) R E s :=
  wp_require.mpr ⟨holds, fun _ => fails⟩

theorem ends_ofExcept {result : Except ε α} (holds : ∀ value, result = .ok value → Q value s)
    (fails : ∀ error, result = .error error → E error s) : Ends (ofExcept result : Process S σ ι ε α) Q E s :=
  wp_ofExcept.mpr ⟨holds, fails⟩

/-- Both ends of a part lead on. -/
theorem ends_outcome {R : Except ε α → σ → Prop}
    (tried : Ends p (fun value => R (.ok value)) (fun error => R (.error error)) s) : Ends (outcome p) R E s :=
  wp_outcome.mpr tried

theorem ends_call {R : β → σ → Prop} {note : σ → σ} {f : ι → σ → Option (β × σ)} (fails : E error (note s))
    (moves : ∀ answer value t, f answer s = some (value, t) → R value t) :
    Ends (call site error note f : Process S σ ι ε β) R E s := wp_call trivial fails moves

theorem ends_act [Fault ε] {R : β → σ → Prop} {f : ι → σ → Except ε (β × σ)} (fails : E Fault.fault s)
    (own : ∀ answer error, f answer s = .error error → E error s)
    (moves : ∀ answer value t, f answer s = .ok (value, t) → R value t ∧ E Fault.fault t) :
    Ends (act site f : Process S σ ι ε β) R E s := by
  refine wp_act.mpr ⟨trivial, fun reply _ => ?_⟩
  cases reply with
  | done answer =>
    cases made : f answer s with
    | error error => simpa [Reply.apply, made, ofExcept] using own answer error made
    | ok pair => simpa [Reply.apply, made, ofExcept] using (moves answer pair.1 pair.2 made).1
  | refused => exact fails
  | lost answer =>
    cases made : f answer s with
    | error error => simpa [Reply.apply, made, ofExcept] using own answer error made
    | ok pair => simpa [Reply.apply, made, ofExcept] using (moves answer pair.1 pair.2 made).2

theorem ends_ask [Fault ε] {R : β → σ → Prop} {f : ι → σ → Except ε β} (fails : E Fault.fault s)
    (own : ∀ answer error, f answer s = .error error → E error s)
    (reads : ∀ answer value, f answer s = .ok value → R value s) :
    Ends (ask site f : Process S σ ι ε β) R E s := by
  refine wp_act.mpr ⟨trivial, fun reply _ => ?_⟩
  cases reply with
  | done answer =>
    cases read : f answer s with
    | error error => simpa [Reply.apply, read, Except.map, ofExcept] using own answer error read
    | ok value => simpa [Reply.apply, read, Except.map, ofExcept] using reads answer value read
  | refused => exact fails
  | lost answer =>
    cases read : f answer s with
    | error error => simpa [Reply.apply, read, Except.map, ofExcept] using own answer error read
    | ok value => simpa [Reply.apply, read, Except.map, ofExcept] using fails

theorem ends_mark {R : Unit → σ → Prop} {f : σ → σ} (holds : R () (f s)) :
    Ends (mark site f : Process S σ ι ε Unit) R E s := ⟨trivial, fun _ _ => holds⟩

theorem ends_view {R : β → σ → Prop} {f : σ → β} (holds : R (f s) s) :
    Ends (view site f : Process S σ ι ε β) R E s := ⟨trivial, fun _ _ => holds⟩

/-- The loop rule. -/
theorem ends_each {items : List β} {body : β → Process S σ ι ε Unit} {P : σ → Prop}
    (turn : ∀ item ∈ items, ∀ t, P t → Ends (body item) (fun _ => P) E t) (start : P s) :
    Ends (each items body) (fun _ => P) E s := wp_each turn start

end Ends

/-- No step fails. -/
abbrev noFailure : S → Reply ι → Prop := fun _ reply => ∃ answer, reply = .done answer

/-- When no step fails, the process returns, and what it returns is as promised. -/
def Completes (p : Process S σ ι ε α) (Q : α → σ → Prop) (s : σ) : Prop :=
  p.wp noFailure Q (fun _ _ => False) (fun _ _ => True) s

section Completes

variable {p : Process S σ ι ε α}

theorem Completes.mono {Q Q' : α → σ → Prop} {s : σ} (strong : p.Completes Q s)
    (returns : ∀ value t, Q value t → Q' value t) : p.Completes Q' s :=
  wp.mono strong returns (fun _ _ never => never) fun _ _ held => held

theorem Completes.bind {R : β → σ → Prop} {f : α → Process S σ ι ε β} {s : σ}
    (first : p.Completes (fun value t => (f value).Completes R t) s) : (p >>= f).Completes R s :=
  wp_bind.mpr first

/-- What is known of every end of the process is known of the end it comes to. -/
theorem Completes.also {Q Q' : α → σ → Prop} {E : ε → σ → Prop} {C : S → σ → Prop} {s : σ}
    (first : p.Completes Q s) (second : p.wp noFailure Q' E C s) :
    p.Completes (fun value t => Q value t ∧ Q' value t) s :=
  (wp.and first second).mono (fun _ _ held => held) (fun _ _ held => held.1) fun _ _ _ => trivial

/-- A process that completes comes to an end. -/
theorem Completes.returns [Inhabited ι] {Q : α → σ → Prop} {s : σ} (completes : p.Completes Q s) :
    ∃ value t, Q value t := by
  induction p generalizing s with
  | ret value => exact ⟨value, s, completes⟩
  | raise error => exact completes.elim
  | perform site effect next ih => exact ih (.done default) s (completes.2 _ ⟨default, rfl⟩)

theorem Completes.require {R : Unit → σ → Prop} {condition : Prop} [Decidable condition] {error : ε} {s : σ}
    (holds : condition) (after : R () s) :
    (require condition error : Process S σ ι ε Unit).Completes R s :=
  wp_require.mpr ⟨fun _ => after, fun fails => fails holds⟩

theorem Completes.act [Fault ε] {R : β → σ → Prop} {site : S} {f : ι → σ → Except ε (β × σ)} {s : σ}
    (moves : ∀ answer, ∃ value t, f answer s = .ok (value, t) ∧ R value t) :
    (act site f : Process S σ ι ε β).Completes R s := by
  refine wp_act.mpr ⟨trivial, ?_⟩
  rintro _ ⟨answer, rfl⟩
  obtain ⟨value, t, moved, holds⟩ := moves answer
  simpa [Reply.apply, moved, ofExcept] using holds

theorem Completes.ask [Fault ε] {R : β → σ → Prop} {site : S} {f : ι → σ → Except ε β} {s : σ}
    (reads : ∀ answer, ∃ value, f answer s = .ok value ∧ R value s) :
    (ask site f : Process S σ ι ε β).Completes R s := by
  refine .act fun answer => ?_
  obtain ⟨value, read, holds⟩ := reads answer
  exact ⟨value, s, by simp [read, Except.map], holds⟩

theorem Completes.modify [Fault ε] {R : Unit → σ → Prop} {site : S} {f : σ → σ} {s : σ}
    (changed : R () (f s)) : (modify site f : Process S σ ι ε Unit).Completes R s :=
  .act fun _ => ⟨(), f s, rfl, changed⟩

/-- A loop whose every turn completes and leaves the state alone. -/
theorem Completes.each {items : List β} {body : β → Process S σ ι ε Unit} {s : σ}
    (turn : ∀ item ∈ items, (body item).Completes (fun _ t => t = s) s) :
    (each items body).Completes (fun _ t => t = s) s :=
  wp_each (fun item member t same => by
    subst same
    exact turn item member) rfl

end Completes

/-- Every step of the process, wherever it is taken, moves the state as `G` says for its site. -/
def Steps (G : S → σ → σ → Prop) : Process S σ ι ε α → Prop
  | .ret _ => True
  | .raise _ => True
  | .perform site effect next =>
    (∀ reply s, G site s (effect reply s)) ∧ ∀ reply s, Steps G (next reply s)

section Steps

variable {G : S → σ → σ → Prop} {site : S}

theorem Steps.bind {p : Process S σ ι ε α} {f : α → Process S σ ι ε β} (first : p.Steps G)
    (rest : ∀ value, (f value).Steps G) : (p >>= f).Steps G := by
  show (p.bind f).Steps G
  induction p with
  | ret value => exact rest value
  | raise error => trivial
  | perform site effect next ih => exact ⟨first.1, fun reply s => ih reply s (first.2 reply s)⟩

theorem Steps.handle {p : Process S σ ι ε α} {h : ε → Process S σ ι ε α} (body : p.Steps G)
    (handler : ∀ error, (h error).Steps G) : (tryCatch p h).Steps G := by
  show (p.handle h).Steps G
  induction p with
  | ret value => trivial
  | raise error => exact handler error
  | perform site effect next ih => exact ⟨body.1, fun reply s => ih reply s (body.2 reply s)⟩

theorem Steps.act [Fault ε] {f : ι → σ → Except ε (β × σ)} (same : ∀ s, G site s s)
    (moves : ∀ answer s value t, f answer s = .ok (value, t) → G site s t) :
    (act site f).Steps G := by
  refine ⟨fun reply s => ?_, fun reply s => ?_⟩
  · cases reply with
    | done answer =>
      cases read : f answer s with
      | error error => simpa [Reply.apply, read] using same s
      | ok pair => simpa [Reply.apply, read] using moves answer s pair.1 pair.2 read
    | refused => exact same s
    | lost answer =>
      cases read : f answer s with
      | error error => simpa [Reply.apply, read] using same s
      | ok pair => simpa [Reply.apply, read] using moves answer s pair.1 pair.2 read
  · show (ofExcept (reply.apply f s).1).Steps G
    cases (reply.apply f s).1 <;> trivial

theorem Steps.ask [Fault ε] {f : ι → σ → Except ε β} (same : ∀ s, G site s s) : (ask site f).Steps G := by
  refine .act same fun answer s value t read => ?_
  cases result : f answer s with
  | error error => simp [result, Except.map] at read
  | ok found =>
    simp only [result, Except.map, Except.ok.injEq, Prod.mk.injEq] at read
    exact read.2 ▸ same s

theorem Steps.modify [Fault ε] {f : σ → σ} (same : ∀ s, G site s s) (moves : ∀ s, G site s (f s)) :
    (modify site f : Process S σ ι ε Unit).Steps G := by
  refine .act same fun answer s value t read => ?_
  simp only [Except.ok.injEq, Prod.mk.injEq, true_and] at read
  exact read ▸ moves s

theorem Steps.require {condition : Prop} [Decidable condition] {error : ε} :
    (require condition error : Process S σ ι ε Unit).Steps G := by
  unfold Process.require
  split <;> trivial

theorem Steps.each {items : List β} {body : β → Process S σ ι ε Unit}
    (turn : ∀ item, (body item).Steps G) : (each items body).Steps G := by
  induction items with
  | nil => trivial
  | cons item rest ih => exact (turn item).bind fun _ => ih

theorem Steps.attempt {p : Process S σ ι ε Unit} (body : p.Steps G) : (attempt p).Steps G :=
  .handle (.bind body fun _ => trivial) fun _ => trivial

theorem Steps.attemptEach {items : List β} {body : β → Process S σ ι ε Unit}
    (turn : ∀ item, (body item).Steps G) : (attemptEach items body).Steps G := by
  induction items with
  | nil => trivial
  | cons item rest ih =>
    exact .bind (.attempt (turn item)) fun _ => .bind ih fun _ => trivial

theorem Steps.outcome {p : Process S σ ι ε α} (body : p.Steps G) : (outcome p).Steps G :=
  .handle (.bind body fun _ => trivial) fun _ => trivial

theorem Steps.probe {f : σ → Bool} (same : ∀ s, G site s s) :
    (probe site f : Process S σ ι ε Bool).Steps G :=
  ⟨fun _ s => same s, fun _ _ => trivial⟩

/-- What every step keeps holds at every end of the process. -/
theorem Steps.wp {P : σ → Prop} {p : Process S σ ι ε α} {allowed : S → Reply ι → Prop} {C : S → σ → Prop}
    {s : σ} (steps : p.Steps G) (visits : ∀ site s t, P s → G site s t → C site s)
    (keeps : ∀ site s t, P s → G site s t → P t) (start : P s) :
    p.wp allowed (fun _ => P) (fun _ => P) C s := by
  induction p generalizing s with
  | ret value => exact start
  | raise error => exact start
  | perform site effect next ih =>
    exact ⟨visits site s _ start (steps.1 .refused s),
      fun reply _ => ih reply s (steps.2 reply s) (keeps site s _ start (steps.1 reply s))⟩

theorem Steps.view {f : σ → β} (same : ∀ s, G site s s) : (view site f : Process S σ ι ε β).Steps G :=
  ⟨fun _ s => same s, fun _ _ => trivial⟩

theorem Steps.mark {f : σ → σ} (moves : ∀ s, G site s (f s)) :
    (mark site f : Process S σ ι ε Unit).Steps G :=
  ⟨fun _ s => moves s, fun _ _ => trivial⟩

end Steps

/-- Every error that the process may end with satisfies `P`. -/
def Raises (P : ε → Prop) : Process S σ ι ε α → Prop
  | .ret _ => True
  | .raise error => P error
  | .perform _ _ next => ∀ reply s, Raises P (next reply s)

section Raises

variable {P : ε → Prop}

theorem Raises.bind {p : Process S σ ι ε α} {f : α → Process S σ ι ε β} (first : p.Raises P)
    (rest : ∀ value, (f value).Raises P) : (p >>= f).Raises P := by
  show (p.bind f).Raises P
  induction p with
  | ret value => exact rest value
  | raise error => exact first
  | perform site effect next ih => exact fun reply s => ih reply s (first reply s)

/-- A handler is only given what its body raises. -/
theorem Raises.handle {P : ε → Prop} {p : Process S σ ι ε α} {h : ε → Process S σ ι ε α} (body : p.Raises P)
    (handler : ∀ error, P error → (h error).Raises P) : (tryCatch p h).Raises P := by
  show (p.handle h).Raises P
  induction p with
  | ret value => trivial
  | raise error => exact handler error body
  | perform site effect next ih => exact fun reply s => ih reply s (body reply s)

theorem Raises.probe {P : ε → Prop} {site : S} {f : σ → Bool} :
    (probe site f : Process S σ ι ε Bool).Raises P := fun _ _ => trivial

theorem Raises.act [Fault ε] {site : S} {f : ι → σ → Except ε (β × σ)} (fault : P Fault.fault)
    (own : ∀ answer s error, f answer s = .error error → P error) :
    (Process.act site f).Raises P := by
  intro reply s
  show (ofExcept (reply.apply f s).1).Raises P
  cases reply with
  | done answer =>
    cases read : f answer s with
    | error error => simpa [Reply.apply, read, ofExcept, Raises] using own answer s error read
    | ok pair => simp [Reply.apply, read, ofExcept, Raises]
  | refused => exact fault
  | lost answer =>
    cases read : f answer s with
    | error error => simpa [Reply.apply, read, ofExcept, Raises] using own answer s error read
    | ok pair => simpa [Reply.apply, read, ofExcept, Raises] using fault

theorem Raises.ask [Fault ε] {site : S} {f : ι → σ → Except ε β} (fault : P Fault.fault)
    (own : ∀ answer s error, f answer s = .error error → P error) :
    (Process.ask site f).Raises P := by
  refine .act fault fun answer s error read => own answer s error ?_
  cases result : f answer s with
  | error other => simpa [result, Except.map] using read
  | ok value => simp [result, Except.map] at read

theorem Raises.modify [Fault ε] {site : S} {f : σ → σ} (fault : P Fault.fault) :
    (Process.modify site f : Process S σ ι ε Unit).Raises P :=
  .act fault fun _ _ _ never => by cases never

theorem Raises.require {condition : Prop} [Decidable condition] {error : ε} (own : P error) :
    (Process.require condition error : Process S σ ι ε Unit).Raises P := by
  unfold Process.require
  split
  · trivial
  · exact own

/-- A promise about errors may use which errors there are. -/
theorem wp.raises {p : Process S σ ι ε α} (promise : wp allowed Q E C p s) (only : p.Raises P) :
    wp allowed Q (fun error t => E error t ∧ P error) C p s := by
  induction p generalizing s with
  | ret value => exact promise
  | raise error => exact ⟨promise, only⟩
  | perform site effect next ih =>
    exact ⟨promise.1, fun reply answered => ih reply s (promise.2 reply answered) (only reply s)⟩

end Raises

end Process

end Machine
