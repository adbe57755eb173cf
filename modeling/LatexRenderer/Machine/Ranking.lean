import Mathlib.Data.List.Nodup

/-! # Ranks in a sorted table

A query that orders a table and skips the first rows returns those that have at least so many rows before them. A query
that orders a table and stops after some rows returns as many as there are, up to that number.
-/

namespace Machine

universe u

variable {α : Type u} {before : α → α → Bool} {rows : List α} {row : α} {count : ℕ}

/-- What stands behind its rank: the element between two parts of a list is dropped with the first part. -/
theorem mem_drop_append_cons {front back : List α} (nodup : (front ++ row :: back).Nodup) :
    row ∈ (front ++ row :: back).drop count ↔ count ≤ front.length := by
  rw [List.drop_append]
  constructor
  · intro member
    by_contra far
    obtain ⟨more, shape⟩ : ∃ more, count - front.length = more + 1 := ⟨count - front.length - 1, by omega⟩
    rw [List.drop_eq_nil_of_le (by omega), shape, List.drop_succ_cons, List.nil_append] at member
    exact (List.nodup_cons.mp (List.nodup_append.mp nodup).2.1).1 (List.mem_of_mem_drop member)
  · intro near
    rw [Nat.sub_eq_zero_of_le near]
    exact List.mem_append_right _ List.mem_cons_self

/-- The rows behind the first `count` of a strict order are those with as many rows before them. -/
theorem mem_drop_mergeSort (trans : ∀ a b c, before a b = true → before b c = true → before a c = true)
    (total : ∀ a b, (before a b || before b a) = true)
    (antisymm : ∀ a ∈ rows, ∀ b ∈ rows, before a b = true → before b a = true → a = b) (nodup : rows.Nodup) :
    row ∈ (rows.mergeSort before).drop count ↔ row ∈ rows ∧ count ≤ rows.countP fun other => !before row other := by
  have permuted := List.mergeSort_perm rows before
  have sorted := List.pairwise_mergeSort trans total rows
  rw [← permuted.countP_eq, ← permuted.mem_iff]
  have distinct : (rows.mergeSort before).Nodup := permuted.nodup_iff.mpr nodup
  have anti : ∀ a ∈ rows.mergeSort before, ∀ b ∈ rows.mergeSort before, before a b = true → before b a = true → a = b :=
    fun a left b right => antisymm a (permuted.mem_iff.mp left) b (permuted.mem_iff.mp right)
  generalize rows.mergeSort before = list at sorted distinct anti
  by_cases member : row ∈ list
  · obtain ⟨front, back, rfl⟩ := List.append_of_mem member
    obtain ⟨-, later, earlier⟩ := List.pairwise_append.mp sorted
    have ahead : front.countP (fun other => !before row other) = front.length := by
      refine List.countP_eq_length.mpr fun other there => ?_
      rw [Bool.not_eq_true']
      refine Bool.eq_false_iff.mpr fun behind => ?_
      have same := anti other (List.mem_append_left _ there) row member (earlier other there row List.mem_cons_self) behind
      exact (List.nodup_append.mp distinct).2.2 other there row List.mem_cons_self same
    have behind : (row :: back).countP (fun other => !before row other) = 0 := by
      refine List.countP_eq_zero.mpr fun other there => ?_
      have after : before row other = true := by
        rcases List.mem_cons.mp there with rfl | there
        · simpa using total other other
        · exact (List.pairwise_cons.mp later).1 other there
      simp [after]
    rw [mem_drop_append_cons distinct, List.countP_append, ahead, behind]
    simp [member]
  · exact ⟨fun dropped => absurd (List.mem_of_mem_drop dropped) member, fun both => absurd both.1 member⟩

/-- Taking the first `count` of the chosen rows of a keyed table in some order leaves as many fewer of them. -/
theorem countP_behind {κ : Type*} [BEq κ] [LawfulBEq κ] {key : α → κ} {chosen : α → Bool} (nodup : (rows.map key).Nodup) :
    (rows.countP fun row => chosen row &&
      !((((rows.filter chosen).mergeSort before).take count).map key).contains (key row)) =
      rows.countP chosen - count := by
  have permuted := List.mergeSort_perm (rows.filter chosen) before
  have distinct : (((rows.filter chosen).mergeSort before).map key).Nodup :=
    (permuted.map key).nodup_iff.mpr (nodup.sublist (List.filter_sublist.map _))
  have length : ((rows.filter chosen).mergeSort before).length = rows.countP chosen := by
    rw [List.length_mergeSort, List.countP_eq_length_filter]
  have swap : (rows.countP fun row => chosen row &&
      !((((rows.filter chosen).mergeSort before).take count).map key).contains (key row)) =
      (rows.filter chosen).countP fun row =>
        !((((rows.filter chosen).mergeSort before).take count).map key).contains (key row) := by
    rw [List.countP_filter]
    exact List.countP_congr fun row _ => by rw [Bool.and_comm]
  rw [swap, ← permuted.countP_eq, ← length]
  generalize (rows.filter chosen).mergeSort before = list at distinct
  rw [← List.take_append_drop count list, List.map_append] at distinct
  obtain ⟨-, -, apart⟩ := List.nodup_append.mp distinct
  have front : ((list.take count).countP fun row => !((list.take count).map key).contains (key row)) = 0 := by
    refine List.countP_eq_zero.mpr fun row member => ?_
    simp only [Bool.not_eq_true', Bool.not_eq_false]
    exact List.contains_iff_mem.mpr (List.mem_map_of_mem member)
  have back : ((list.drop count).countP fun row => !((list.take count).map key).contains (key row)) =
      (list.drop count).length := by
    refine List.countP_eq_length.mpr fun row member => ?_
    rw [Bool.not_eq_true', ← Bool.not_eq_true, List.contains_iff_mem]
    exact fun taken => apart _ taken _ (List.mem_map_of_mem member) rfl
  have parts : (list.countP fun row => !((list.take count).map key).contains (key row)) =
      ((list.take count ++ list.drop count).countP fun row => !((list.take count).map key).contains (key row)) := by
    rw [List.take_append_drop]
  rw [parts, List.countP_append, front, back, List.length_drop, Nat.zero_add]

end Machine
