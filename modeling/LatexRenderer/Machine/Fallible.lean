import Mathlib.Tactic.Basic

/-! # Computations that may fail

`demand` and `obtain?` are the two guards of a computation in `Except`. Each comes with the rule that takes a
successful run apart: what was demanded holds, what was obtained is there, and the rest succeeded. `Fails` speaks of the
errors of a computation, with a rule for each way to build one.
-/

namespace Machine

universe u v

variable {ε : Type u} {α β : Type v}

/-- Fail unless the condition holds. -/
def demand (condition : Prop) [Decidable condition] (error : ε) : Except ε PUnit.{v + 1} :=
  if condition then .ok ⟨⟩ else .error error

/-- Fail unless the value is there. -/
def obtain? (value : Option α) (error : ε) : Except ε α :=
  match value with
  | some found => .ok found
  | none => .error error

/-- A sequence succeeds when its first part and then its second one do. -/
theorem bind_eq_ok {first : Except ε α} {next : α → Except ε β} {result : β} :
    first >>= next = .ok result ↔ ∃ value, first = .ok value ∧ next value = .ok result := by
  cases first with
  | ok value => exact ⟨fun done => ⟨value, rfl, done⟩, fun ⟨_, same, done⟩ => by cases same; exact done⟩
  | error error => exact ⟨fun never => (nomatch never), fun ⟨_, never, _⟩ => (nomatch never)⟩

theorem demand_eq_ok {condition : Prop} [Decidable condition] {error : ε} {done : PUnit.{v + 1}} :
    demand condition error = .ok done ↔ condition := by
  unfold demand
  split <;> simp_all

theorem obtain?_eq_ok {value : Option α} {error : ε} {found : α} :
    obtain? value error = .ok found ↔ value = some found := by
  cases value <;> simp [obtain?]

theorem ok_bind (value : α) (next : α → Except ε β) : (Except.ok value >>= next) = next value := rfl

theorem demand_of {condition : Prop} [Decidable condition] {error : ε} (holds : condition) :
    demand condition error = .ok ⟨⟩ := if_pos holds

theorem demand_not {condition : Prop} [Decidable condition] {error : ε} (fails : ¬ condition) :
    demand condition error = .error error := if_neg fails

/-- A sequence that begins with a guard. -/
@[simp] theorem demand_bind_eq_ok {condition : Prop} [Decidable condition] {error : ε}
    {next : PUnit.{v + 1} → Except ε β} {result : β} :
    demand condition error >>= next = .ok result ↔ condition ∧ next ⟨⟩ = .ok result := by
  rw [bind_eq_ok]
  exact ⟨fun ⟨_, holds, done⟩ => ⟨demand_eq_ok.mp holds, done⟩, fun ⟨holds, done⟩ => ⟨⟨⟩, demand_eq_ok.mpr holds, done⟩⟩

/-- A sequence that begins with a value that has to be there. -/
@[simp] theorem obtain?_bind_eq_ok {value : Option α} {error : ε} {next : α → Except ε β} {result : β} :
    obtain? value error >>= next = .ok result ↔ ∃ found, value = some found ∧ next found = .ok result := by
  simp only [bind_eq_ok, obtain?_eq_ok]

/-- Every error of the computation is as `P` says. -/
def Fails (P : ε → Prop) (computation : Except ε α) : Prop := ∀ error, computation = .error error → P error

section Fails

variable {P : ε → Prop}

theorem fails_ok (value : α) : Fails P (Except.ok value) := fun _ never => by cases never

theorem Fails.bind {first : Except ε α} {next : α → Except ε β} (start : Fails P first)
    (rest : ∀ value, first = .ok value → Fails P (next value)) : Fails P (first >>= next) := by
  cases first with
  | ok value => exact rest value rfl
  | error own => exact fun error same => start error (by cases same; rfl)

theorem fails_demand {condition : Prop} [Decidable condition] {error : ε} (own : P error) :
    Fails P (demand condition error) := by
  unfold demand
  split
  · exact fails_ok _
  · rintro _ ⟨⟩
    exact own

theorem fails_obtain? {value : Option α} {error : ε} (own : P error) : Fails P (obtain? value error) := by
  cases value with
  | some found => exact fails_ok found
  | none =>
    rintro _ ⟨⟩
    exact own

end Fails

end Machine
