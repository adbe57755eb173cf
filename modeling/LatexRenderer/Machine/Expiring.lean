import Mathlib.Data.List.Nodup
import LatexRenderer.Machine.Table

/-! # Keys that are taken until an instant

A row takes its key until it expires. `live?` finds the row that holds a key at an instant, `claim?` inserts a
row when its key is free or held by an expired row, and expired rows may be deleted. `Ledger` relates the
rows to the history of the claims: a claim that has not expired still has its row, and of two claims of
a key the first had expired when the second was made.
-/

namespace Machine

universe u v

variable {α : Type u} {κ : Type v} [DecidableEq κ] (key : α → κ) (expiresAt : α → ℕ)

/-- The row that holds a key at an instant. -/
def live? (k : κ) (now : ℕ) (rows : List α) : Option α :=
  rows.find? fun row => key row = k && expiresAt row > now

/-- Take the key of a row at an instant: insert the row, or put it in the place of an expired one. -/
def claim? (now : ℕ) (new : α) (rows : List α) : Option (List α) :=
  match rows.find? (key · = key new) with
  | none => some (rows ++ [new])
  | some old =>
    if expiresAt old ≤ now then some (rows.map fun row => if key row = key new then new else row) else none

/-- The rows and the history of the claims, each with the instant at which it was made. -/
structure Ledger (clock : ℕ) (rows : List α) (history : List (ℕ × α)) : Prop where
  distinct : (rows.map key).Nodup
  claimed : ∀ row ∈ rows, ∃ made, (made, row) ∈ history
  kept : ∀ made row, (made, row) ∈ history → clock < expiresAt row → row ∈ rows
  past : ∀ made row, (made, row) ∈ history → made ≤ clock
  apart : history.Pairwise fun first second => key first.2 = key second.2 → expiresAt first.2 ≤ second.1

variable {key expiresAt} {clock later now : ℕ} {rows next : List α} {history : List (ℕ × α)} {new : α} {k : κ}

theorem live?_eq_some {row : α} (found : live? key expiresAt k now rows = some row) :
    row ∈ rows ∧ key row = k ∧ now < expiresAt row := by
  have holds := List.find?_some found
  simp only [Bool.and_eq_true, decide_eq_true_eq] at holds
  exact ⟨List.mem_of_find?_eq_some found, holds⟩

theorem live?_eq_none (free : live? key expiresAt k now rows = none) :
    ∀ row ∈ rows, key row = k → expiresAt row ≤ now := by
  intro row member same
  have fails := List.find?_eq_none.mp free row member
  simp only [same, decide_true, Bool.true_and, decide_eq_true_eq] at fails
  exact Nat.not_lt.mp fails

/-- A claim leaves the rows of other keys alone and its own row with its key. -/
theorem mem_claim? (taken : claim? key expiresAt now new rows = some next) :
    new ∈ next ∧ (∀ row ∈ next, row = new ∨ row ∈ rows ∧ key row ≠ key new) ∧
      (∀ row ∈ rows, key row ≠ key new → row ∈ next) ∧
      ((rows.map key).Nodup → (next.map key).Nodup ∧
        ∀ row ∈ rows, key row = key new → expiresAt row ≤ now) := by
  unfold claim? at taken
  cases found : rows.find? (key · = key new) with
  | none =>
    rw [found] at taken
    obtain rfl := Option.some.inj taken
    have free : ∀ row ∈ rows, key row ≠ key new := by simpa using found
    refine ⟨by simp, ?_, fun row member _ => List.mem_append_left _ member, fun distinct =>
      ⟨nodup_map_append distinct free, fun row member same => absurd same (free row member)⟩⟩
    intro row member
    rcases List.mem_append.mp member with before | added
    · exact .inr ⟨before, free row before⟩
    · exact .inl (List.mem_singleton.mp added)
  | some old =>
    rw [found] at taken
    obtain ⟨expired, eq⟩ := (Option.ite_none_right_eq_some ..).mp taken
    rw [← Option.some.inj eq]
    have held : key old = key new := by simpa using List.find?_some found
    have present : old ∈ rows := List.mem_of_find?_eq_some found
    refine ⟨List.mem_map.mpr ⟨old, present, if_pos held⟩, ?_, ?_, fun distinct => ⟨?_, ?_⟩⟩
    · intro row member
      obtain ⟨before, there, rfl⟩ := List.mem_map.mp member
      by_cases same : key before = key new
      · exact .inl (if_pos same)
      · rw [if_neg same]
        exact .inr ⟨there, same⟩
    · intro row member other
      exact List.mem_map.mpr ⟨row, member, if_neg other⟩
    · rw [map_map_column fun row => ?_]
      · exact distinct
      · by_cases same : key row = key new
        · rw [if_pos same, same]
        · rw [if_neg same]
    · intro row member same
      rwa [List.inj_on_of_nodup_map distinct member present (same.trans held.symm)]

/-- A claim is refused because of a row that holds its key. -/
theorem claim?_eq_none (refused : claim? key expiresAt now new rows = none) :
    ∃ row ∈ rows, key row = key new ∧ now < expiresAt row := by
  unfold claim? at refused
  cases found : rows.find? (key · = key new) with
  | none =>
    rw [found] at refused
    cases refused
  | some old =>
    rw [found] at refused
    have held : key old = key new := by simpa using List.find?_some found
    refine ⟨old, List.mem_of_find?_eq_some found, held, Nat.lt_of_not_le fun expired => ?_⟩
    simp [expired] at refused

namespace Ledger

omit [DecidableEq κ] in
theorem nil (clock : ℕ) : Ledger key expiresAt clock [] [] where
  distinct := List.nodup_nil
  claimed := by simp
  kept := by simp
  past := by simp
  apart := .nil

omit [DecidableEq κ] in
theorem advance (ledger : Ledger key expiresAt clock rows history) (le : clock ≤ later) :
    Ledger key expiresAt later rows history :=
  { ledger with
    kept := fun made row member live => ledger.kept made row member (Nat.lt_of_le_of_lt le live)
    past := fun made row member => Nat.le_trans (ledger.past made row member) le }

omit [DecidableEq κ] in
/-- Expired rows may go. -/
theorem delete (ledger : Ledger key expiresAt clock rows history) {keep : α → Bool}
    (expired : ∀ row ∈ rows, keep row = false → expiresAt row ≤ clock) :
    Ledger key expiresAt clock (rows.filter keep) history :=
  { ledger with
    distinct := ledger.distinct.sublist (List.filter_sublist.map _)
    claimed := fun row member => ledger.claimed row (List.mem_of_mem_filter member)
    kept := fun made row member live => by
      have present := ledger.kept made row member live
      refine List.mem_filter.mpr ⟨present, ?_⟩
      cases stays : keep row with
      | true => rfl
      | false => exact absurd (expired row present stays) (Nat.not_le.mpr live) }

/-- A claim extends the history; the earlier claims of its key have expired. -/
theorem claim (ledger : Ledger key expiresAt clock rows history)
    (taken : claim? key expiresAt now new rows = some next) (past : now ≤ clock) :
    Ledger key expiresAt clock next (history ++ [(clock, new)]) := by
  obtain ⟨present, mem, others, distinct⟩ := mem_claim? taken
  obtain ⟨distinct, expired⟩ := distinct ledger.distinct
  have free : ∀ made row, (made, row) ∈ history → key row = key new → expiresAt row ≤ clock := by
    intro made row member same
    by_contra live
    have there := ledger.kept made row member (Nat.lt_of_not_le live)
    exact live (Nat.le_trans (expired row there same) past)
  constructor
  case distinct => exact distinct
  case claimed =>
    intro row member
    rcases mem row member with rfl | ⟨before, _⟩
    · exact ⟨clock, by simp⟩
    · obtain ⟨made, recorded⟩ := ledger.claimed row before
      exact ⟨made, List.mem_append_left _ recorded⟩
  case kept =>
    intro made row member live
    rcases List.mem_append.mp member with before | added
    · by_cases same : key row = key new
      · exact absurd (free made row before same) (Nat.not_le.mpr live)
      · exact others row (ledger.kept made row before live) same
    · cases List.mem_singleton.mp added
      exact present
  case past =>
    intro made row member
    rcases List.mem_append.mp member with before | added
    · exact ledger.past made row before
    · cases List.mem_singleton.mp added
      exact Nat.le_refl _
  case apart =>
    refine List.pairwise_append.mpr ⟨ledger.apart, List.pairwise_singleton .., ?_⟩
    intro first before second added same
    obtain rfl := List.mem_singleton.mp added
    exact free first.1 first.2 before same

/-- As long as a claim has not expired, its key is held by its row. -/
theorem holds (ledger : Ledger key expiresAt clock rows history) {made : ℕ} {row : α}
    (member : (made, row) ∈ history) (live : clock < expiresAt row) (past : now ≤ clock) :
    live? key expiresAt (key row) now rows = some row := by
  have present := ledger.kept made row member live
  cases found : live? key expiresAt (key row) now rows with
  | none => exact absurd (live?_eq_none found row present rfl) (by omega)
  | some other =>
    obtain ⟨there, same, _⟩ := live?_eq_some found
    rw [List.inj_on_of_nodup_map ledger.distinct there present same]

end Ledger

end Machine
