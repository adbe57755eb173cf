import Mathlib.Data.List.Basic
import Mathlib.Data.List.Nodup
import Mathlib.Data.List.Range

/-! # Histories that grow at the front

A history lists what happened, the newest entry first. `Chronicle` says of every entry what holds of those before it;
`Latest` says that an entry is the newest one of its kind.
-/

namespace Machine

universe u

variable {α : Type u} {sound : List α → α → Prop} {kind : α → Prop} {entry other : α} {history : List α}

/-- Every entry is sound for those before it. -/
def Chronicle (sound : List α → α → Prop) (history : List α) : Prop :=
  ∀ later entry earlier, history = later ++ entry :: earlier → sound earlier entry

theorem Chronicle.nil : Chronicle sound [] := by
  intro later entry earlier split
  cases later <;> cases split

theorem Chronicle.cons (chronicle : Chronicle sound history) (next : sound history entry) :
    Chronicle sound (entry :: history) := by
  intro later found earlier split
  cases later with
  | nil =>
    obtain ⟨rfl, rfl⟩ := List.cons.inj split
    exact next
  | cons first later => exact chronicle later found earlier (List.cons.inj split).2

/-- The entry is in the history, and none of the kind is newer. -/
def Latest (kind : α → Prop) (entry : α) (history : List α) : Prop :=
  ∃ since before, history = since ++ entry :: before ∧ ∀ newer ∈ since, ¬ kind newer

theorem Latest.new (entry : α) (history : List α) : Latest kind entry (entry :: history) :=
  ⟨[], history, rfl, fun _ member => absurd member List.not_mem_nil⟩

theorem Latest.cons (latest : Latest kind entry history) (another : ¬ kind other) :
    Latest kind entry (other :: history) := by
  obtain ⟨since, before, rfl, none⟩ := latest
  exact ⟨other :: since, before, rfl, List.forall_mem_cons.mpr ⟨another, none⟩⟩

theorem Latest.mem (latest : Latest kind entry history) : entry ∈ history := by
  obtain ⟨since, before, rfl, -⟩ := latest
  exact List.mem_append_right _ List.mem_cons_self

/-- Another entry of the kind is older. -/
theorem Latest.older {earlier later : List α} (latest : Latest kind entry history) (apart : other ≠ entry)
    (own : kind other) (split : history = later ++ other :: earlier) :
    ∃ since between, later = since ++ entry :: between := by
  obtain ⟨since, before, shape, none⟩ := latest
  rw [shape] at split
  rcases List.append_eq_append_iff.mp split with ⟨front, rfl, rest⟩ | ⟨front, rfl, rest⟩
  · cases front with
    | nil =>
      rw [List.nil_append] at rest
      exact absurd (List.cons.inj rest).1.symm apart
    | cons first front =>
      obtain ⟨rfl, -⟩ := List.cons.inj rest
      exact ⟨since, front, rfl⟩
  · cases front with
    | nil =>
      rw [List.nil_append] at rest
      exact absurd (List.cons.inj rest).1 apart
    | cons first front =>
      obtain ⟨rfl, -⟩ := List.cons.inj rest
      exact absurd own (none _ (List.mem_append_right _ List.mem_cons_self))

end Machine

/-! ## Histories whose members are numbered without gaps in each family

A history lists what has been issued, oldest first; each member belongs to a family and carries a number.
In a gapless history the numbers of a family are 0, 1, 2, … in the order of their issue, so that a
number names one member of the family and a member without a successor is the last.
-/

namespace Machine

universe u v

variable {α : Type u} {κ : Type v} [DecidableEq κ]

/-- The members of each family are numbered from zero in the order of the history. -/
def Gapless (family : α → κ) (number : α → ℕ) (history : List α) : Prop :=
  ∀ k, (history.filter (family · = k)).map number = List.range (history.countP (family · = k))

namespace Gapless

variable {family : α → κ} {number : α → ℕ} {history : List α}

theorem nil : Gapless family number [] :=
  fun _ => rfl

/-- The next member of a family carries the number of its members so far. -/
theorem append {new : α} (gapless : Gapless family number history)
    (next : number new = history.countP (family · = family new)) :
    Gapless family number (history ++ [new]) := by
  intro k
  have before := gapless k
  rw [List.filter_append, List.countP_append, List.map_append, before]
  by_cases same : family new = k
  · subst same
    simp [next, List.range_succ]
  · simp [same]

/-- The members of one family carry different numbers. -/
theorem unique (gapless : Gapless family number history) {first second : α} (inFirst : first ∈ history)
    (inSecond : second ∈ history) (family_eq : family first = family second)
    (number_eq : number first = number second) : first = second := by
  have distinct : ((history.filter (family · = family second)).map number).Nodup := by
    rw [gapless]
    exact List.nodup_range
  exact List.inj_on_of_nodup_map distinct (List.mem_filter.mpr ⟨inFirst, by simp [family_eq]⟩)
    (List.mem_filter.mpr ⟨inSecond, by simp⟩) number_eq

/-- A number is in use in a family exactly when it is below the number of its members. -/
theorem mem_iff (gapless : Gapless family number history) {k : κ} {n : ℕ} :
    (∃ member ∈ history, family member = k ∧ number member = n) ↔
      n < history.countP (family · = k) := by
  rw [← List.mem_range, ← gapless k, List.mem_map]
  constructor
  · rintro ⟨member, inHistory, belongs, rfl⟩
    exact ⟨member, List.mem_filter.mpr ⟨inHistory, by simpa using belongs⟩, rfl⟩
  · rintro ⟨member, kept, rfl⟩
    obtain ⟨inHistory, belongs⟩ := List.mem_filter.mp kept
    exact ⟨member, inHistory, by simpa using belongs, rfl⟩

/-- A member without a successor is the last of its family. -/
theorem last (gapless : Gapless family number history) {member : α} (inHistory : member ∈ history)
    (final : ∀ other ∈ history, family other = family member → number other ≠ number member + 1) :
    number member + 1 = history.countP (family · = family member) := by
  have below : number member < history.countP (family · = family member) :=
    gapless.mem_iff.mp ⟨member, inHistory, rfl, rfl⟩
  have notNext : ¬ number member + 1 < history.countP (family · = family member) := by
    intro further
    obtain ⟨other, present, same, next⟩ := gapless.mem_iff.mpr further
    exact final other present same next
  omega

end Gapless

end Machine
