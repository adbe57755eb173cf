import Mathlib.Algebra.BigOperators.Group.List.Basic
import Mathlib.Algebra.Order.Ring.Nat
import Mathlib.Data.List.Nodup
import Mathlib.Data.Set.Basic
import LatexRenderer.Machine.Run

/-! # Tables as lists of rows, their totals, and quotas over them

`update?` is a guarded update of the row a key finds, and `total` sums a weight over the rows. Quotas are
meters with a limit each: a step either lets a meter fall or grows it by what an admission check has
found room for, and then no reachable state exceeds a limit.
-/

namespace Machine

universe u v w

section Table

variable {α : Type u}

/-- Update the first row that meets a condition; `none` when there is no such row or its update refuses. -/
def update? (key : α → Bool) (change : α → Option α) : List α → Option (List α)
  | [] => none
  | row :: rows =>
    if key row then (change row).map (· :: rows) else (update? key change rows).map (row :: ·)

variable {key : α → Bool} {change : α → Option α} {rows next : List α}

/-- An update changed the first row that meets the condition and kept those around it. -/
theorem update?_eq_some (updated : update? key change rows = some next) :
    ∃ before row after new, rows = before ++ row :: after ∧ rows.find? key = some row ∧
      change row = some new ∧ next = before ++ new :: after := by
  induction rows generalizing next with
  | nil => cases updated
  | cons row rows ih =>
    rw [update?] at updated
    split at updated
    next found =>
      obtain ⟨new, changed, rfl⟩ := Option.map_eq_some_iff.mp updated
      exact ⟨[], row, rows, new, rfl, List.find?_cons_of_pos found, changed, rfl⟩
    next other =>
      obtain ⟨rest, later, rfl⟩ := Option.map_eq_some_iff.mp updated
      obtain ⟨before, old, after, new, rfl, found, changed, rfl⟩ := ih later
      exact ⟨row :: before, old, after, new, rfl, (List.find?_cons_of_neg other).trans found, changed, rfl⟩

/-- What holds of every row and is kept by the change holds of every row afterwards. -/
theorem update?_forall {P : α → Prop} (updated : update? key change rows = some next)
    (keep : ∀ {row new}, row ∈ rows → key row = true → change row = some new → P row → P new)
    (all : ∀ row ∈ rows, P row) : ∀ row ∈ next, P row := by
  obtain ⟨before, old, after, new, rfl, found, changed, rfl⟩ := update?_eq_some updated
  intro row member
  rcases List.mem_append.mp member with left | right
  · exact all row (List.mem_append_left _ left)
  · rcases List.mem_cons.mp right with rfl | later
    · have within : old ∈ before ++ old :: after := by simp
      exact keep within (List.find?_some found) changed (all old within)
    · exact all row (by simp [later])

/-- The row an update found is the changed row afterwards, when the change keeps the condition. -/
theorem find?_update? (updated : update? key change rows = some next)
    (keep : ∀ {row new}, change row = some new → key new = key row) :
    ∃ row new, rows.find? key = some row ∧ change row = some new ∧ next.find? key = some new := by
  induction rows generalizing next with
  | nil => cases updated
  | cons row rows ih =>
    rw [update?] at updated
    split at updated
    next found =>
      obtain ⟨new, changed, rfl⟩ := Option.map_eq_some_iff.mp updated
      exact ⟨row, new, List.find?_cons_of_pos found, changed,
        List.find?_cons_of_pos ((keep changed).trans found)⟩
    next other =>
      obtain ⟨rest, later, rfl⟩ := Option.map_eq_some_iff.mp updated
      obtain ⟨old, new, found, changed, after⟩ := ih later
      exact ⟨old, new, (List.find?_cons_of_neg other).trans found, changed,
        (List.find?_cons_of_neg other).trans after⟩

/-- An update does not change what another condition finds. -/
theorem find?_update?_of_ne {other : α → Bool} (updated : update? key change rows = some next)
    (apart : ∀ {row new}, key row = true → change row = some new → other row = false ∧ other new = false) :
    next.find? other = rows.find? other := by
  obtain ⟨before, row, after, new, rfl, found, changed, rfl⟩ := update?_eq_some updated
  obtain ⟨skipped, skips⟩ := apart (List.find?_some found) changed
  simp [List.find?_append, skipped, skips]

/-- A row that is found can be updated, unless the change refuses. -/
theorem exists_update?_of_find? {row new : α} (found : rows.find? key = some row) (changed : change row = some new) :
    ∃ next, update? key change rows = some next := by
  induction rows with
  | nil => cases found
  | cons head rows ih =>
    rw [update?]
    split
    next own =>
      rw [List.find?_cons_of_pos own] at found
      cases found
      exact ⟨new :: rows, by rw [changed]; rfl⟩
    next other =>
      rw [List.find?_cons_of_neg other] at found
      obtain ⟨next, updated⟩ := ih found
      exact ⟨head :: next, by rw [updated]; rfl⟩

/-- In a table whose key column has no value twice, an update changes the row of its key and keeps the
rows of the other keys. -/
theorem update?_of_nodup {β : Type v} [BEq β] [LawfulBEq β] {column : α → β} {value : β}
    (updated : update? (column · == value) change rows = some next) (distinct : (rows.map column).Nodup) :
    ∃ row new, row ∈ rows ∧ column row = value ∧ change row = some new ∧
      ∀ other, other ∈ next ↔ other = new ∨ other ∈ rows ∧ column other ≠ value := by
  obtain ⟨before, row, after, new, rfl, found, changed, rfl⟩ := update?_eq_some updated
  have keyed : column row = value := by simpa using List.find?_some found
  refine ⟨row, new, by simp, keyed, changed, fun other => ?_⟩
  simp only [List.map_append, List.map_cons, List.nodup_append, List.nodup_cons, List.mem_map,
    List.mem_cons, keyed] at distinct
  obtain ⟨_, ⟨notAfter, _⟩, notBefore⟩ := distinct
  simp only [List.mem_append, List.mem_cons]
  constructor
  · rintro (left | rfl | right)
    · exact .inr ⟨.inl left, notBefore _ ⟨other, left, rfl⟩ value (.inl rfl)⟩
    · exact .inl rfl
    · exact .inr ⟨.inr (.inr right), fun same => notAfter ⟨other, right, same⟩⟩
  · rintro (rfl | ⟨left | rfl | right, apart⟩)
    · exact .inr (.inl rfl)
    · exact .inl left
    · exact absurd keyed apart
    · exact .inr (.inr right)

/-- In such a table an update reaches any row through its key. -/
theorem exists_update?_of_nodup {β : Type v} [BEq β] [LawfulBEq β] {column : α → β} {row new : α}
    (distinct : (rows.map column).Nodup) (member : row ∈ rows) (changed : change row = some new) :
    ∃ next, update? (column · == column row) change rows = some next := by
  induction rows with
  | nil => cases member
  | cons head rows ih =>
    rw [List.map_cons, List.nodup_cons] at distinct
    rw [update?]
    rcases List.mem_cons.mp member with rfl | later
    · exact ⟨new :: rows, by simp [changed]⟩
    · have apart : column head ≠ column row :=
        fun same => distinct.1 (List.mem_map.mpr ⟨row, later, same.symm⟩)
      obtain ⟨next, updated⟩ := ih distinct.2 later
      exact ⟨head :: next, by simp [apart, updated]⟩

/-- Changing every row in place keeps a column that the change keeps. -/
theorem map_map_column {β : Type v} {column : α → β} {change : α → α}
    (keep : ∀ row, column (change row) = column row) (rows : List α) :
    (rows.map change).map column = rows.map column := by
  rw [List.map_map]
  exact List.map_congr_left fun row _ => keep row

/-- A row whose key is new to the table keeps the keys distinct. -/
theorem nodup_map_append {β : Type v} {column : α → β} {new : α} (distinct : (rows.map column).Nodup)
    (fresh : ∀ row ∈ rows, column row ≠ column new) : ((rows ++ [new]).map column).Nodup := by
  rw [List.map_append, List.map_singleton]
  refine List.nodup_append.mpr ⟨distinct, List.nodup_singleton _, ?_⟩
  intro value before other added same
  obtain ⟨row, member, rfl⟩ := List.mem_map.mp before
  obtain rfl := List.mem_singleton.mp added
  exact fresh row member same

section Values

variable {β : Type v} {column : α → β} {keep : α → Prop}

/-- The values that a column takes in the rows that meet a condition. -/
def valuesOf (column : α → β) (keep : α → Prop) (rows : List α) : Set β :=
  { value | ∃ row ∈ rows, column row = value ∧ keep row }

theorem mem_valuesOf {value : β} : value ∈ valuesOf column keep rows ↔
    ∃ row ∈ rows, column row = value ∧ keep row :=
  Iff.rfl

theorem mem_valuesOf_cons {value : β} {row : α} : value ∈ valuesOf column keep (row :: rows) ↔
    (column row = value ∧ keep row) ∨ value ∈ valuesOf column keep rows := by
  simp [mem_valuesOf]

theorem mem_valuesOf_append {value : β} : value ∈ valuesOf column keep (rows ++ next) ↔
    value ∈ valuesOf column keep rows ∨ value ∈ valuesOf column keep next := by
  simp [mem_valuesOf, or_and_right, exists_or]

theorem mem_valuesOf_singleton {value : β} {row : α} :
    value ∈ valuesOf column keep [row] ↔ column row = value ∧ keep row := by
  simp [mem_valuesOf]

/-- Leaving rows out adds no value. -/
theorem valuesOf_subset (fewer : List.Sublist next rows) :
    valuesOf column keep next ⊆ valuesOf column keep rows := by
  rintro value ⟨row, member, same, kept⟩
  exact ⟨row, fewer.subset member, same, kept⟩

/-- An update that keeps the column and the condition keeps the values. -/
theorem valuesOf_update? (updated : update? key change rows = some next)
    (same : ∀ {row new}, change row = some new → column new = column row ∧ (keep new ↔ keep row)) :
    valuesOf column keep next = valuesOf column keep rows := by
  obtain ⟨before, row, after, new, rfl, _, changed, rfl⟩ := update?_eq_some updated
  obtain ⟨columns, keeps⟩ := same changed
  ext value
  simp only [mem_valuesOf_append, mem_valuesOf_cons, columns, keeps]

end Values

/-- The sum of a weight over the rows. -/
def total (weight : α → Nat) (rows : List α) : Nat :=
  (rows.map weight).sum

variable {weight : α → Nat}

@[simp] theorem total_nil : total weight [] = 0 := rfl

@[simp] theorem total_cons (row : α) (rows : List α) :
    total weight (row :: rows) = weight row + total weight rows := by
  simp [total]

@[simp] theorem total_append (first second : List α) :
    total weight (first ++ second) = total weight first + total weight second := by
  simp [total]

theorem total_add (first second : α → Nat) (rows : List α) :
    total first rows + total second rows = total (fun row => first row + second row) rows := by
  induction rows with
  | nil => rfl
  | cons row rows ih =>
    simp only [total_cons]
    omega

/-- Nothing is summed exactly when no row has weight. -/
theorem total_eq_zero_iff : total weight rows = 0 ↔ ∀ row ∈ rows, weight row = 0 := by
  induction rows with
  | nil => simp
  | cons row rows ih => simp [ih]

/-- A weight that no row has sums to nothing. -/
theorem total_eq_zero (none : ∀ row, weight row = 0) (rows : List α) : total weight rows = 0 :=
  total_eq_zero_iff.mpr fun row _ => none row

/-- The sum over the rows that meet a condition. -/
theorem total_filter (keep : α → Bool) (rows : List α) :
    total weight (rows.filter keep) = total (fun row => if keep row then weight row else 0) rows := by
  induction rows with
  | nil => rfl
  | cons row rows ih => cases kept : keep row <;> simp [kept, ih]

/-- The rows that are kept and the others make up the whole. -/
theorem total_filter_add_filter_not (keep : α → Bool) (rows : List α) :
    total weight (rows.filter keep) + total weight (rows.filter fun row => !keep row) = total weight rows := by
  induction rows with
  | nil => rfl
  | cons row rows ih => cases kept : keep row <;> simp [kept] <;> omega

/-- Counting the rows that meet a condition sums one for each. -/
theorem countP_eq_total (keep : α → Bool) (rows : List α) :
    rows.countP keep = total (fun row => if keep row then 1 else 0) rows := by
  induction rows with
  | nil => rfl
  | cons row rows ih => cases kept : keep row <;> simp [kept, ih, Nat.add_comm]

/-- An update adds at most one to a count, and nothing when the changed row counts only if it did before. -/
theorem countP_update?_le {counts : α → Bool} {added : Nat} (updated : update? key change rows = some next)
    (moves : ∀ {row new}, change row = some new → counts new = true → counts row = true ∨ 1 ≤ added) :
    next.countP counts ≤ rows.countP counts + added := by
  obtain ⟨before, row, after, new, rfl, _, changed, rfl⟩ := update?_eq_some updated
  simp only [List.countP_append, List.countP_cons]
  by_cases counted : counts new = true
  · rcases moves changed counted with same | one
    · rw [if_pos counted, if_pos same]
      omega
    · rw [if_pos counted]
      omega
  · rw [if_neg counted]
    omega

/-- Leaving rows out does not raise the total. -/
theorem total_le_of_sublist (weight : α → Nat) (fewer : List.Sublist next rows) :
    total weight next ≤ total weight rows := by
  induction fewer with
  | slnil => exact Nat.le_refl 0
  | cons row _ ih => exact Nat.le_trans ih (by simp)
  | cons_cons row _ ih => simpa using ih

/-- A row weighs no more than the table. -/
theorem le_total_of_mem (weight : α → Nat) {row : α} (member : row ∈ rows) :
    weight row ≤ total weight rows := by
  have less := total_le_of_sublist weight (List.singleton_sublist.mpr member)
  simpa using less

/-- Rows with keys of their own weigh no more than a table that has a row of each key, at least as heavy. -/
theorem total_le_of_matching {β : Type v} {γ : Type w} {weight : α → Nat} {heavier : β → Nat}
    {column : α → γ} (tableColumn : β → γ) {rows : List α} {table : List β}
    (distinct : (rows.map column).Nodup)
    (covered : ∀ row ∈ rows, ∃ cover ∈ table, tableColumn cover = column row ∧ weight row ≤ heavier cover) :
    total weight rows ≤ total heavier table := by
  induction rows generalizing table with
  | nil => exact Nat.zero_le _
  | cons row rows ih =>
    rw [List.map_cons, List.nodup_cons] at distinct
    obtain ⟨cover, member, same, heavy⟩ := covered row List.mem_cons_self
    obtain ⟨before, after, rfl⟩ := List.append_of_mem member
    have rest : total weight rows ≤ total heavier (before ++ after) := by
      refine ih distinct.2 fun other later => ?_
      obtain ⟨found, inside, named, enough⟩ := covered other (List.mem_cons_of_mem _ later)
      refine ⟨found, ?_, named, enough⟩
      rcases List.mem_append.mp inside with left | right
      · exact List.mem_append_left _ left
      · rcases List.mem_cons.mp right with rfl | right
        · exact absurd (List.mem_map.mpr ⟨other, later, named.symm.trans same⟩) distinct.1
        · exact List.mem_append_right _ right
    simp only [total_append, total_cons] at rest ⊢
    omega

/-- An update that keeps a column of the rows it changes keeps the column of the table. -/
theorem update?_map {β : Type v} {column : α → β} (updated : update? key change rows = some next)
    (keep : ∀ {row new}, change row = some new → column new = column row) :
    next.map column = rows.map column := by
  obtain ⟨before, row, after, new, rfl, _, changed, rfl⟩ := update?_eq_some updated
  simp [keep changed]

/-- An update changes the total by the weights of the row before and after it. -/
theorem total_update? (updated : update? key change rows = some next) :
    ∃ row new, rows.find? key = some row ∧ new ∈ next ∧ change row = some new ∧
      ∀ weight : α → Nat, total weight next + weight row = total weight rows + weight new := by
  obtain ⟨before, row, after, new, rfl, found, changed, rfl⟩ := update?_eq_some updated
  refine ⟨row, new, found, by simp, changed, fun weight => ?_⟩
  simp only [total_append, total_cons]
  omega

end Table

section Quota

variable {σ : Type u} {ε : Type v} {κ : Type w} {m : LabeledMachine σ ε} {usage : σ → κ → Nat}
  {limit : κ → Nat}

/-- Room was found for a growth: each meter stays as it is or below its limit. -/
def Admits (usage limit growth : κ → Nat) : Prop :=
  ∀ meter, growth meter = 0 ∨ usage meter + growth meter ≤ limit meter

/-- Every step from a reachable state grows the meters by no more than it found room for. -/
structure Metered (m : LabeledMachine σ ε) (usage : σ → κ → Nat) (limit : κ → Nat) : Prop where
  init : ∀ {s}, m.Init s → ∀ meter, usage s meter ≤ limit meter
  step : ∀ {s e t}, Reachable m s → m.Step s e t → ∃ growth, Admits (usage s) limit growth ∧
    ∀ meter, usage t meter ≤ usage s meter + growth meter

/-- No meter of a metered machine exceeds its limit. -/
theorem Metered.bounded (metered : Metered m usage limit) {t : σ} (reached : Reachable m t)
    (meter : κ) : usage t meter ≤ limit meter := by
  refine reached.induction (P := fun s => ∀ meter, usage s meter ≤ limit meter) metered.init ?_ meter
  intro s e t before taken bounded meter
  obtain ⟨growth, admits, grows⟩ := metered.step before taken
  have grown := grows meter
  have held := bounded meter
  rcases admits meter with none | room <;> omega

/-- A step that grows no meter needs no room. -/
theorem Admits.zero : Admits (usage s) limit fun _ => 0 :=
  fun _ => .inl rfl

end Quota

end Machine
