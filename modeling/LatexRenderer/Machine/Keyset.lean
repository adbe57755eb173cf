import Mathlib.Data.List.Sort
import Mathlib.Data.List.Nodup

/-! # Pages behind a key

A page query orders the rows by a key, the greatest first, and returns the first of them below the key that the last page
ended with. What it leaves out lies below the key that it ends with itself, so a walk over the pages meets a row whose key
does not change exactly once.
-/

namespace Machine

universe u v

variable {α : Type u} {κ : Type v} [LinearOrder κ]

/-- Whether a row is still to come. -/
def ahead (key : α → κ) (cursor : Option κ) (row : α) : Bool := cursor.all fun last => decide (key row < last)

/-- The first `count` rows that are still to come. -/
def ordered (key : α → κ) (cursor : Option κ) (rows : List α) (count : ℕ) : List α :=
  ((rows.filter (ahead key cursor)).insertionSort fun first second => key second ≤ key first).take count

/-- The items of a page and the key that it ends with, if there is more: one row more than the page holds is asked for. -/
def keysetPage (key : α → κ) (limit : ℕ) (cursor : Option κ) (rows : List α) : List α × Option κ :=
  let found := ordered key cursor rows (limit + 1)
  if limit < found.length then (found.dropLast, found.dropLast.getLast?.map key) else (found, none)

/-- What a page says about the rows. -/
structure PageOf (key : α → κ) (cursor : Option κ) (rows items : List α) (next : Option κ) : Prop where
  nodup : (items.map key).Nodup
  ahead : ∀ row ∈ items, row ∈ rows ∧ ahead key cursor row = true
  more : ∀ last, next = some last → ∀ row ∈ rows, Machine.ahead key cursor row = true → (row ∈ items ↔ last ≤ key row)
  descends : ∀ last, next = some last → ∀ row, Machine.ahead key (some last) row = true → Machine.ahead key cursor row = true
  last : next = none → ∀ row ∈ rows, Machine.ahead key cursor row = true → row ∈ items

variable {key : α → κ} {cursor : Option κ} {rows : List α} {limit : ℕ}

/-- A page of at least one row is one. -/
theorem keysetPage_spec (distinct : (rows.map key).Nodup) (positive : 0 < limit) :
    PageOf key cursor rows (keysetPage key limit cursor rows).1 (keysetPage key limit cursor rows).2 := by
  obtain ⟨sorted, shape⟩ : ∃ sorted, sorted = (rows.filter (ahead key cursor)).insertionSort
    fun first second => key second ≤ key first := ⟨_, rfl⟩
  have permuted : sorted.Perm (rows.filter (ahead key cursor)) := shape ▸ List.perm_insertionSort _ _
  have descending : sorted.Pairwise fun first second => key second ≤ key first := by
    have total : Std.Total fun first second : α => key second ≤ key first := ⟨fun a b => le_total _ _⟩
    have trans : IsTrans α fun first second => key second ≤ key first := ⟨fun a b c first second => second.trans first⟩
    exact shape ▸ List.pairwise_insertionSort _ _
  have keys : (sorted.map key).Nodup :=
    (permuted.map key).nodup_iff.mpr (distinct.sublist (List.filter_sublist.map _))
  have members : ∀ row, row ∈ sorted ↔ row ∈ rows ∧ ahead key cursor row = true :=
    fun row => permuted.mem_iff.trans List.mem_filter
  unfold keysetPage ordered
  dsimp only
  rw [← shape]
  split
  · next many =>
    rw [List.length_take] at many
    have popped : (sorted.take (limit + 1)).dropLast = sorted.take limit := by
      rw [List.dropLast_eq_take, List.length_take, List.take_take]
      congr 1
      omega
    have nonempty : sorted.take limit ≠ [] := by
      intro empty
      have length := congrArg List.length empty
      rw [List.length_take, List.length_nil] at length
      omega
    obtain ⟨front, final, split⟩ := (List.eq_nil_or_concat (sorted.take limit)).resolve_left nonempty
    rw [List.concat_eq_append] at split
    have whole : sorted = sorted.take limit ++ sorted.drop limit := (List.take_append_drop limit sorted).symm
    rw [popped, split, List.getLast?_append_of_ne_nil _ (by simp)]
    rw [split] at whole
    rw [whole] at descending keys
    obtain ⟨first, -, across⟩ := List.pairwise_append.mp descending
    have above : ∀ row ∈ front ++ [final], key final ≤ key row := by
      intro row member
      rcases List.mem_append.mp member with earlier | own
      · exact (List.pairwise_append.mp first).2.2 row earlier final (List.mem_singleton_self _)
      · rw [List.mem_singleton.mp own]
    have within : final ∈ front ++ [final] := List.mem_append_right _ (List.mem_singleton_self _)
    have listed : ∀ row ∈ front ++ [final], row ∈ sorted := fun row member => whole ▸ List.mem_append_left _ member
    constructor
    · rw [List.map_append] at keys
      exact (List.nodup_append.mp keys).1
    · exact fun row member => (members row).mp (listed row member)
    · intro last same row member below
      obtain rfl : key final = last := Option.some.inj same
      refine ⟨above row, fun least => ?_⟩
      have there := (members row).mpr ⟨member, below⟩
      rw [whole] at there
      rcases List.mem_append.mp there with page | behind
      · exact page
      · have same := le_antisymm (across final within row behind) least
        rw [List.inj_on_of_nodup_map keys (List.mem_append_right _ behind) (List.mem_append_left _ within) same]
        exact within
    · intro last same row below
      obtain rfl : key final = last := Option.some.inj same
      have before := ((members final).mp (listed final within)).2
      cases cursor with
      | none => rfl
      | some cursor =>
        have less : key row < key final := of_decide_eq_true below
        exact decide_eq_true (less.trans (of_decide_eq_true before))
    · intro never
      cases never
  · next few =>
    have all : sorted.take (limit + 1) = sorted := by
      refine List.take_of_length_le ?_
      rw [List.length_take] at few
      omega
    rw [all]
    exact ⟨keys, fun row => (members row).mp, fun _ never => (by cases never), fun _ never => (by cases never),
      fun _ row member below => (members row).mpr ⟨member, below⟩⟩

end Machine
