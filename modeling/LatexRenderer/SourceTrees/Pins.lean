import LatexRenderer.Machine.Reclamation
import LatexRenderer.Machine.Table
import LatexRenderer.SourceTrees.Effects

/-! # Cached source trees are reclaimed entries

The rows that are not `deleting` are the live entries, the `deleting` ones the condemned; the directories
are the storage. Every step of the workers and collectors is a step of the reclamation of entries, so its
rules say what the pins protect.
-/

namespace LatexRenderer

open Machine

namespace CachedTrees

/-- The entries, pins and storage of the cached trees. -/
def reclaim (cached : CachedTrees) : Reclaim String JobAttempt where
  live := valuesOf (·.id) (·.status ≠ .deleting) cached.trees
  condemned := valuesOf (·.id) (·.status = .deleting) cached.trees
  pins := { pin | ⟨pin.1, pin.2⟩ ∈ cached.readers }
  issued := { id | id ∈ cached.issued }
  claimed := valuesOf (·.treeId) (fun _ => True) cached.collectors
  cleared := valuesOf (·.treeId) (·.phase = .gone) cached.collectors
  stored := valuesOf (·.id) (fun _ => True) cached.directories

/-- Rows have ids of their own, which `newId` has given. -/
structure Keyed (cached : CachedTrees) : Prop where
  distinct : (cached.trees.map (·.id)).Nodup
  issued : ∀ row ∈ cached.trees, row.id ∈ cached.issued

end CachedTrees

theorem SourceTreeRow.setStatus_eq_some {source : List SourceTreeStatus} {target : SourceTreeStatus}
    {row next : SourceTreeRow} (changed : row.setStatus source target = some next) :
    row.status ∈ source ∧ next = { row with status := target } := by
  obtain ⟨member, eq⟩ := (Option.ite_none_right_eq_some ..).mp changed
  exact ⟨member, (Option.some.inj eq).symm⟩

section Statuses

variable {trees next : List SourceTreeRow} {treeId : String} {source : List SourceTreeStatus}
  {target : SourceTreeStatus}

theorem setStatus_ids (updated : update? (·.id == treeId) (·.setStatus source target) trees = some next) :
    next.map (·.id) = trees.map (·.id) := by
  refine update?_map updated fun changed => ?_
  rw [(SourceTreeRow.setStatus_eq_some changed).2]

/-- A change between live statuses moves no row. -/
theorem settled_values (live : .deleting ∉ source ∧ target ≠ .deleting)
    (updated : update? (·.id == treeId) (·.setStatus source target) trees = some next) :
    valuesOf (·.id) (·.status ≠ .deleting) next = valuesOf (·.id) (·.status ≠ .deleting) trees ∧
      valuesOf (·.id) (·.status = .deleting) next = valuesOf (·.id) (·.status = .deleting) trees := by
  have moves : ∀ {row new : SourceTreeRow}, row.setStatus source target = some new →
      new.id = row.id ∧ (new.status = .deleting ↔ row.status = .deleting) := by
    intro row new changed
    obtain ⟨member, rfl⟩ := SourceTreeRow.setStatus_eq_some changed
    have rowLive : row.status ≠ .deleting := fun same => live.1 (same ▸ member)
    exact ⟨rfl, iff_of_false live.2 rowLive⟩
  exact ⟨valuesOf_update? updated fun changed => ⟨(moves changed).1, not_congr (moves changed).2⟩,
    valuesOf_update? updated moves⟩

/-- The collector moves its row from the live ones to the `deleting` ones. -/
theorem collected_values (distinct : (trees.map (·.id)).Nodup)
    (updated : update? (·.id == treeId) (·.setStatus source .deleting) trees = some next) :
    valuesOf (·.id) (·.status ≠ .deleting) next =
        valuesOf (·.id) (·.status ≠ .deleting) trees \ {treeId} ∧
      valuesOf (·.id) (·.status = .deleting) next =
        insert treeId (valuesOf (·.id) (·.status = .deleting) trees) := by
  obtain ⟨row, new, member, keyed, changed, rows⟩ := update?_of_nodup updated distinct
  obtain ⟨_, rfl⟩ := SourceTreeRow.setStatus_eq_some changed
  constructor
  · ext id
    constructor
    · rintro ⟨other, listed, rfl, live⟩
      rcases (rows other).mp listed with rfl | ⟨inside, apart⟩
      · exact absurd rfl live
      · exact ⟨⟨other, inside, rfl, live⟩, apart⟩
    · rintro ⟨⟨other, inside, rfl, live⟩, apart⟩
      exact ⟨other, (rows other).mpr (.inr ⟨inside, apart⟩), rfl, live⟩
  · ext id
    constructor
    · rintro ⟨other, listed, rfl, status⟩
      rcases (rows other).mp listed with rfl | ⟨inside, _⟩
      · exact .inl keyed
      · exact .inr ⟨other, inside, rfl, status⟩
    · rintro (rfl | ⟨other, inside, rfl, status⟩)
      · exact ⟨_, (rows _).mpr (.inl rfl), keyed, rfl⟩
      · by_cases same : other.id = treeId
        · exact ⟨_, (rows _).mpr (.inl rfl), keyed.trans same.symm, rfl⟩
        · exact ⟨other, (rows other).mpr (.inr ⟨inside, same⟩), rfl, status⟩

/-- The last statement of the collector takes `deleting` rows only. -/
theorem deleted_values (treeId : String) (trees : List SourceTreeRow) :
    let rest := trees.filter fun row => !(row.id == treeId && row.status == .deleting)
    valuesOf (·.id) (·.status ≠ .deleting) rest = valuesOf (·.id) (·.status ≠ .deleting) trees ∧
      valuesOf (·.id) (·.status = .deleting) rest =
        valuesOf (·.id) (·.status = .deleting) trees \ {treeId} := by
  constructor
  · refine Set.Subset.antisymm (valuesOf_subset List.filter_sublist) ?_
    rintro id ⟨row, member, rfl, live⟩
    exact ⟨row, List.mem_filter.mpr ⟨member, by simp [live]⟩, rfl, live⟩
  · ext id
    constructor
    · rintro ⟨row, listed, rfl, status⟩
      obtain ⟨member, kept⟩ := List.mem_filter.mp listed
      exact ⟨⟨row, member, rfl, status⟩, by simpa [status] using kept⟩
    · rintro ⟨⟨row, member, rfl, status⟩, apart⟩
      have other : row.id ≠ treeId := apart
      exact ⟨row, List.mem_filter.mpr ⟨member, by simp [other]⟩, rfl, status⟩

end Statuses

section Steps

variable {limits : Limits} {s t : TreeSystem} {e : TreeAction} {next : CachedTrees}

namespace TreeSystem

theorem Effect.keyed (effect : s.Effect e next) (keyed : s.cached.Keyed) : next.Keyed := by
  cases effect with
  | kept | pinned | unpinned | made | renamed | found | removed | ended => exact ⟨keyed.distinct, keyed.issued⟩
  | reserved attempt input fresh absent =>
    refine ⟨nodup_map_append keyed.distinct absent, fun row member => ?_⟩
    rcases List.mem_append.mp member with before | new
    · exact List.mem_append_left _ (keyed.issued row before)
    · rw [List.mem_singleton.mp new]
      exact List.mem_append_right _ (List.mem_singleton.mpr rfl)
  | settled treeId source target live trees updated | collected runId treeId free source trees updated =>
    have ids := setStatus_ids updated
    refine ⟨by rw [ids]; exact keyed.distinct, fun row member => ?_⟩
    have listed : row.id ∈ trees.map (·.id) := List.mem_map_of_mem member
    rw [ids] at listed
    obtain ⟨old, before, same⟩ := List.mem_map.mp listed
    exact same ▸ keyed.issued old before
  | deleted collector member phase free collectors fewer =>
    refine ⟨keyed.distinct.sublist (List.filter_sublist.map _), fun row member => ?_⟩
    exact keyed.issued row (List.mem_of_mem_filter member)

/-- Every effect is a step of the reclamation, or none of its steps; only the making of a directory fills
a storage. -/
theorem Effect.reclaim (effect : s.Effect e next) (keyed : s.cached.Keyed) :
    next.reclaim = s.cached.reclaim ∨ ∃ label, Reclaim.Step s.cached.reclaim label next.reclaim ∧
      ∀ entry, label = .fill entry → ∃ attempt input, e = .makeDirectory attempt ∧
        s.phase? attempt = some (.reserved input) ∧ input.id = entry := by
  cases effect with
  | kept => exact .inl rfl
  | pinned attempt row member ready =>
    refine .inr ⟨.pin row.id attempt, ⟨⟨row, member, rfl, by simp [ready]⟩, ?_⟩, by simp⟩
    refine Reclaim.ext rfl rfl (Set.ext fun pin => ?_) rfl rfl rfl rfl
    simp [CachedTrees.reclaim, cached, Prod.ext_iff]
  | reserved attempt input fresh absent =>
    refine .inr ⟨.create input.id attempt, ⟨fresh, ?_⟩, by simp⟩
    refine Reclaim.ext (Set.ext fun id => ?_) (Set.ext fun id => ?_) (Set.ext fun pin => ?_)
      (Set.ext fun id => ?_) rfl rfl rfl
    · refine (mem_valuesOf_append.trans (or_congr_right mem_valuesOf_singleton)).trans ?_
      simp [CachedTrees.reclaim, cached, TreeReservation.row, or_comm, eq_comm]
    · refine (mem_valuesOf_append.trans (or_congr_right mem_valuesOf_singleton)).trans ?_
      simp [CachedTrees.reclaim, cached, TreeReservation.row]
    · simp [CachedTrees.reclaim, cached, Prod.ext_iff, or_comm]
    · simp [CachedTrees.reclaim, cached, or_comm]
  | unpinned reader cause =>
    refine .inr ⟨.unpin reader.treeId reader.attempt, ?_, by simp⟩
    refine Reclaim.ext rfl rfl (Set.ext fun pin => ?_) rfl rfl rfl rfl
    obtain ⟨treeId, attempt⟩ := reader
    simp [CachedTrees.reclaim, cached, Prod.ext_iff]
  | made attempt input named phase absent =>
    refine .inr ⟨.fill input.id, ?_, ?_⟩
    · refine Reclaim.ext rfl rfl rfl rfl rfl rfl (Set.ext fun id => ?_)
      refine (mem_valuesOf_append.trans (or_congr_right mem_valuesOf_singleton)).trans ?_
      simp [CachedTrees.reclaim, cached, or_comm, eq_comm]
    · rintro _ ⟨⟩
      exact ⟨attempt, input, named, phase, rfl⟩
  | renamed treeId moved directories updated =>
    refine .inl (Reclaim.ext rfl rfl rfl rfl rfl rfl (valuesOf_update? updated fun changed => ?_))
    obtain rfl := Option.some.inj changed
    exact ⟨rfl, Iff.rfl⟩
  | settled treeId source target live trees updated =>
    obtain ⟨kept, condemned⟩ := settled_values live updated
    exact .inl (Reclaim.ext kept condemned rfl rfl rfl rfl rfl)
  | collected runId treeId free source trees updated =>
    obtain ⟨row, _, member, same, _⟩ := update?_of_nodup updated keyed.distinct
    obtain ⟨live, condemned⟩ := collected_values keyed.distinct updated
    refine .inr ⟨.condemn treeId, ⟨?_, ?_, ?_⟩, by simp⟩
    · exact same ▸ keyed.issued row member
    · exact fun attempt pin => free _ pin rfl
    · refine Reclaim.ext live condemned rfl rfl (Set.ext fun id => ?_) (Set.ext fun id => ?_) rfl
      · refine (mem_valuesOf_append.trans (or_congr_right mem_valuesOf_singleton)).trans ?_
        simp [CachedTrees.reclaim, cached, or_comm, eq_comm]
      · refine (mem_valuesOf_append.trans (or_congr_right mem_valuesOf_singleton)).trans ?_
        simp [CachedTrees.reclaim, cached]
  | found before after collector phase old gone working =>
    have claims : ∀ id, id ∈ valuesOf (·.treeId) (fun _ => True)
        (before ++ { collector with phase := phase } :: after) ↔ id ∈ s.cached.reclaim.claimed := by
      intro id
      simp only [CachedTrees.reclaim, cached, old, mem_valuesOf_append, mem_valuesOf_cons]
    by_cases absent : phase = .gone
    · refine .inr ⟨.clear collector.treeId, ⟨⟨collector, ?_, rfl, trivial⟩, ?_⟩, by simp⟩
      · change collector ∈ s.collectors
        simp [old]
      · refine Reclaim.ext rfl rfl rfl rfl (Set.ext claims) (Set.ext fun id => ?_) (Set.ext fun id => ?_)
        · simp only [CachedTrees.reclaim, cached, old, mem_valuesOf_append, mem_valuesOf_cons, absent,
            working, Set.mem_insert_iff]
          tauto
        · refine ⟨fun member => ⟨member, ?_⟩, And.left⟩
          rintro rfl
          obtain ⟨directory, inside, same, _⟩ := member
          exact gone absent directory inside same
    · refine .inl (Reclaim.ext rfl rfl rfl rfl (Set.ext claims) (Set.ext fun id => ?_) rfl)
      simp only [CachedTrees.reclaim, cached, old, mem_valuesOf_append, mem_valuesOf_cons, absent, working]
  | removed before after collector old working =>
    refine .inr ⟨.clear collector.treeId, ⟨⟨collector, ?_, rfl, trivial⟩, ?_⟩, by simp⟩
    · change collector ∈ s.collectors
      simp [old]
    · refine Reclaim.ext rfl rfl rfl rfl (Set.ext fun id => ?_) (Set.ext fun id => ?_) (Set.ext fun id => ?_)
      · simp only [CachedTrees.reclaim, cached, old, mem_valuesOf_append, mem_valuesOf_cons]
      · simp only [CachedTrees.reclaim, cached, old, mem_valuesOf_append, mem_valuesOf_cons, working,
          Set.mem_insert_iff]
        tauto
      · constructor
        · rintro ⟨directory, listed, rfl, _⟩
          obtain ⟨member, apart⟩ := List.mem_filter.mp listed
          exact ⟨⟨directory, member, rfl, trivial⟩, by simpa using apart⟩
        · rintro ⟨⟨directory, member, rfl, _⟩, apart⟩
          have other : directory.id ≠ collector.treeId := apart
          exact ⟨directory, List.mem_filter.mpr ⟨member, by simp [other]⟩, rfl, trivial⟩
  | deleted collector member phase free collectors fewer =>
    obtain ⟨live, condemned⟩ := deleted_values collector.treeId s.db.trees
    refine .inr ⟨.erase collector.treeId, ⟨⟨collector, member, rfl, phase⟩, ?_, ?_, ?_⟩, by simp⟩
    · exact valuesOf_subset fewer
    · exact valuesOf_subset fewer
    · exact Reclaim.ext live condemned rfl rfl rfl rfl rfl
  | ended collectors fewer =>
    exact .inr ⟨.forget, ⟨valuesOf_subset fewer, valuesOf_subset fewer, rfl⟩, by simp⟩

end TreeSystem

theorem keyed_of_reachable (reached : Reachable (treeMachine limits) s) : s.cached.Keyed := by
  refine reached.induction (P := fun s => s.cached.Keyed) ?_ ?_
  · rintro s ⟨_, _, trees, _⟩
    constructor <;> simp [TreeSystem.cached, trees]
  · intro s e t _ taken held
    exact (TreeAction.run_effect taken).keyed held

end Steps

end LatexRenderer
