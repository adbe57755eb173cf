import LatexRenderer.Machine.Session

/-! # Steps that decide how a process ends

Some answers at some steps spoil the end of a process, and all others do not. `Judged` says this of a
process: as long as no spoiling answer is given it ends as `Q` and `E` say, and from the first one on it
ends as `Q'` and `E'` say. `Judged.exec` turns this into an equivalence about executions.
-/

namespace Machine

variable {S σ ι ε α β : Type}

namespace Process

/-- The process ends well until a spoiling answer is given, and badly from then on. -/
def Judged (allowed : S → Reply ι → Prop) (spoils : S → σ → Reply ι → Prop) (Q : α → σ → Prop)
    (E : ε → σ → Prop) (Q' : α → σ → Prop) (E' : ε → σ → Prop) : Process S σ ι ε α → σ → Prop
  | .ret value, s => Q value s
  | .raise error, s => E error s
  | .perform site effect next, s => ∀ reply, allowed site reply →
    (spoils site s reply → (next reply s).wp allowed Q' E' (fun _ _ => True) (effect reply s)) ∧
      (¬ spoils site s reply → Judged allowed spoils Q E Q' E' (next reply s) (effect reply s))

/-- On these answers the process meets a spoiling one. -/
def spoiled (spoils : S → σ → Reply ι → Prop) : Process S σ ι ε α → σ → List (Reply ι) → Prop
  | .perform site effect next, s, reply :: rest =>
    spoils site s reply ∨ spoiled spoils (next reply s) (effect reply s) rest
  | _, _, _ => False

instance decidableSpoiled (spoils : S → σ → Reply ι → Prop) [∀ site s reply, Decidable (spoils site s reply)] :
    ∀ (p : Process S σ ι ε α) (s : σ) (replies : List (Reply ι)), Decidable (spoiled spoils p s replies)
  | .perform site effect next, s, reply :: rest =>
    have := decidableSpoiled spoils (next reply s) (effect reply s) rest
    inferInstanceAs (Decidable (spoils site s reply ∨ spoiled spoils (next reply s) (effect reply s) rest))
  | .perform _ _ _, _, [] => isFalse id
  | .ret _, _, _ => isFalse id
  | .raise _, _, _ => isFalse id

variable {allowed : S → Reply ι → Prop} {spoils : S → σ → Reply ι → Prop} {Q Q' : α → σ → Prop}
  {E E' : ε → σ → Prop} {s : σ}

theorem Judged.mono {R R' : α → σ → Prop} {F F' : ε → σ → Prop} {p : Process S σ ι ε α}
    (strong : p.Judged allowed spoils Q E Q' E' s) (returns : ∀ value t, Q value t → R value t)
    (raises : ∀ error t, E error t → F error t) (returns' : ∀ value t, Q' value t → R' value t)
    (raises' : ∀ error t, E' error t → F' error t) : p.Judged allowed spoils R F R' F' s := by
  induction p generalizing s with
  | ret value => exact returns value s strong
  | raise error => exact raises error s strong
  | perform site effect next ih =>
    exact fun reply answered => ⟨fun bad => ((strong reply answered).1 bad).mono returns' raises'
      fun _ _ held => held, fun good => ih reply s ((strong reply answered).2 good)⟩

theorem Judged.bind {R R' : β → σ → Prop} {p : Process S σ ι ε α} {f : α → Process S σ ι ε β}
    (first : p.Judged allowed spoils (fun value t => (f value).Judged allowed spoils R E R' E' t) E
      (fun value t => (f value).wp allowed R' E' (fun _ _ => True) t) E' s) :
    (p >>= f).Judged allowed spoils R E R' E' s := by
  show (p.bind f).Judged allowed spoils R E R' E' s
  induction p generalizing s with
  | ret value => exact first
  | raise error => exact first
  | perform site effect next ih =>
    intro reply answered
    refine ⟨fun bad => ?_, fun good => ih reply s ((first reply answered).2 good)⟩
    exact wp_bind.mpr ((first reply answered).1 bad)

theorem Judged.handle {p : Process S σ ι ε α} {h : ε → Process S σ ι ε α}
    (first : p.Judged allowed spoils Q (fun error t => (h error).Judged allowed spoils Q E Q' E' t)
      Q' (fun error t => (h error).wp allowed Q' E' (fun _ _ => True) t) s) :
    (tryCatch p h).Judged allowed spoils Q E Q' E' s := by
  show (p.handle h).Judged allowed spoils Q E Q' E' s
  induction p generalizing s with
  | ret value => exact first
  | raise error => exact first
  | perform site effect next ih =>
    intro reply answered
    refine ⟨fun bad => ?_, fun good => ih reply s ((first reply answered).2 good)⟩
    exact wp_handle.mpr ((first reply answered).1 bad)

theorem Judged.outcome {R R' : Except ε α → σ → Prop} {p : Process S σ ι ε α}
    (first : p.Judged allowed spoils (fun value => R (.ok value)) (fun error => R (.error error))
      (fun value => R' (.ok value)) (fun error => R' (.error error)) s) :
    (outcome p).Judged allowed spoils R E R' E' s :=
  .handle (.bind first)

/-- One step. -/
theorem Judged.act [Fault ε] {R R' : β → σ → Prop} {site : S} {f : ι → σ → Except ε (β × σ)}
    (spoilt : ∀ reply, allowed site reply → spoils site s reply →
      (ofExcept (reply.apply f s).1 : Process S σ ι ε β).wp allowed R' E' (fun _ _ => True) (reply.apply f s).2)
    (fine : ∀ reply, allowed site reply → ¬ spoils site s reply →
      (ofExcept (reply.apply f s).1 : Process S σ ι ε β).wp allowed R E (fun _ _ => True) (reply.apply f s).2) :
    (act site f : Process S σ ι ε β).Judged allowed spoils R E R' E' s := by
  refine fun reply answered => ⟨spoilt reply answered, fun good => ?_⟩
  have ends := fine reply answered good
  cases result : (reply.apply f s).1 with
  | ok value =>
    rw [result] at ends
    simpa [result, ofExcept, Judged] using ends
  | error error =>
    rw [result] at ends
    simpa [result, ofExcept, Judged] using ends

/-- A look. -/
theorem Judged.probe {R R' : Bool → σ → Prop} {site : S} {f : σ → Bool}
    (spoilt : ∀ reply, spoils site s reply → (¬ ∃ answer, reply = .done answer) ∧ R' false s)
    (seen : R (f s) s)
    (missed : ∀ reply, (¬ ∃ answer, reply = .done answer) → ¬ spoils site s reply → R false s) :
    (probe site f : Process S σ ι ε Bool).Judged allowed spoils R E R' E' s := by
  intro reply _
  refine ⟨fun bad => ?_, fun good => ?_⟩
  · cases reply with
    | done answer => exact absurd ⟨answer, rfl⟩ (spoilt _ bad).1
    | refused => exact (spoilt _ bad).2
    | lost answer => exact (spoilt _ bad).2
  · cases reply with
    | done answer => exact seen
    | refused => exact missed _ (by simp) good
    | lost answer => exact missed _ (by simp) good

/-- A process none of whose steps can be spoiled. -/
theorem Judged.of_wp {C : S → σ → Prop} {p : Process S σ ι ε α} (promise : p.wp allowed Q E C s)
    (never : ∀ site t reply, C site t → ¬ spoils site t reply) :
    p.Judged allowed spoils Q E Q' E' s := by
  induction p generalizing s with
  | ret value => exact promise
  | raise error => exact promise
  | perform site effect next ih =>
    exact fun reply answered => ⟨fun bad => absurd bad (never site s reply promise.1),
      fun _ => ih reply s (promise.2 reply answered)⟩

/-- How a judged process ends on given answers. -/
theorem Judged.exec {K D : Type} {p : Process S σ ι ε α} {t : σ} {replies : List (Reply ι)} {error : ε}
    (judged : p.Judged allowed spoils Q E Q' E' s)
    (allows : ∀ event ∈ (Service.trace p s replies : List (HostEvent K S ι ε α D)),
      Service.Allows allowed event)
    (ends : Service.exec p s replies = (.raise error, t)) :
    (spoiled spoils p s replies → E' error t) ∧ (¬ spoiled spoils p s replies → E error t) := by
  induction replies generalizing p s with
  | nil =>
    cases p with
    | ret value => cases ends
    | raise other =>
      cases ends
      exact ⟨fun never => never.elim, fun _ => judged⟩
    | perform site effect next => cases ends
  | cons reply rest ih =>
    cases p with
    | ret value => cases ends
    | raise other =>
      cases ends
      exact ⟨fun never => never.elim, fun _ => judged⟩
    | perform site effect next =>
      have answered : allowed site reply := allows _ List.mem_cons_self
      have later : ∀ event ∈ (Service.trace (next reply s) (effect reply s) rest :
          List (HostEvent K S ι ε α D)), Service.Allows allowed event :=
        fun event member => allows event (List.mem_cons_of_mem _ member)
      by_cases bad : spoils site s reply
      · have promise := (judged reply answered).1 bad
        exact ⟨fun _ => Service.exec_raises promise later ends, fun good => absurd (.inl bad) good⟩
      · have rests := ih ((judged reply answered).2 bad) later ends
        exact ⟨fun either => rests.1 (either.resolve_left bad), fun good => rests.2 fun met => good (.inr met)⟩

end Process

end Machine
