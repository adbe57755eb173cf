import LatexRenderer.SourceTrees.Pins
import LatexRenderer.SourceTrees.Processes

/-! # Rows, reservations and directories agree on the bytes

What an attempt has measured is in the row it reserves and in the directory it makes, and no step changes
it.
-/

namespace LatexRenderer

open Machine

/-- What the reserved attempts and the directories were measured to take is in their rows. -/
structure TreeSystem.Matches (s : TreeSystem) : Prop where
  reserved : ∀ worker ∈ s.attempts, ∀ input, worker.phase = .reserved input → input.id ∈ s.issued ∧
    ∀ row ∈ s.db.trees, row.id = input.id →
      row.reservedBytes = input.reservedBytes ∧ row.ownerUserId = input.ownerUserId
  directories : ∀ directory ∈ s.directories, directory.id ∈ s.issued ∧
    ∀ row ∈ s.db.trees, row.id = directory.id →
      row.reservedBytes = directory.bytes ∧ row.ownerUserId = directory.ownerUserId
  distinct : (s.directories.map (·.id)).Nodup

section Bytes

variable {limits : Limits} {s t : TreeSystem} {e : TreeAction} {next : CachedTrees}

namespace TreeSystem

/-- A row after a step was there before, with its owner and its bytes, or is new under a new id. -/
theorem Effect.rows (effect : s.Effect e next) {row : SourceTreeRow} (member : row ∈ next.trees) :
    (∃ old ∈ s.db.trees, old.id = row.id ∧ old.reservedBytes = row.reservedBytes ∧
      old.ownerUserId = row.ownerUserId) ∨ row.id ∉ s.issued := by
  cases effect with
  | kept | pinned | unpinned | made | renamed | found | removed | ended =>
    exact .inl ⟨row, member, rfl, rfl, rfl⟩
  | reserved attempt input fresh absent =>
    rcases List.mem_append.mp member with before | new
    · exact .inl ⟨row, before, rfl, rfl, rfl⟩
    · rw [List.mem_singleton.mp new]
      exact .inr fresh
  | settled treeId source target live trees updated | collected runId treeId free source trees updated =>
    obtain ⟨before, old, after, new, rows, _, changed, rfl⟩ := update?_eq_some updated
    obtain ⟨_, rfl⟩ := SourceTreeRow.setStatus_eq_some changed
    rw [rows]
    rcases List.mem_append.mp member with left | right
    · exact .inl ⟨row, List.mem_append_left _ left, rfl, rfl, rfl⟩
    · rcases List.mem_cons.mp right with rfl | later
      · exact .inl ⟨old, by simp, rfl, rfl, rfl⟩
      · exact .inl ⟨row, by simp [later], rfl, rfl, rfl⟩
  | deleted collector inside phase free collectors fewer =>
    exact .inl ⟨row, List.mem_of_mem_filter member, rfl, rfl, rfl⟩

/-- `newId` has given every id it had given before. -/
theorem Effect.issued (effect : s.Effect e next) : s.issued ⊆ next.issued := by
  cases effect with
  | reserved => exact List.subset_append_left ..
  | _ => exact List.Subset.refl _

/-- A directory after a step was there before, with its owner and its bytes, or an attempt has made it. -/
theorem Effect.directories (effect : s.Effect e next) {directory : TreeDirectory}
    (member : directory ∈ next.directories) :
    (∃ old ∈ s.directories, old.id = directory.id ∧ old.bytes = directory.bytes ∧
      old.ownerUserId = directory.ownerUserId) ∨
    ∃ attempt input, s.phase? attempt = some (.reserved input) ∧ directory.id = input.id ∧
      directory.bytes = input.reservedBytes ∧ directory.ownerUserId = input.ownerUserId := by
  cases effect with
  | kept | pinned | unpinned | reserved | settled | collected | found | deleted | ended =>
    exact .inl ⟨directory, member, rfl, rfl, rfl⟩
  | made attempt input named phase absent =>
    rcases List.mem_append.mp member with before | new
    · exact .inl ⟨directory, before, rfl, rfl, rfl⟩
    · rw [List.mem_singleton.mp new]
      exact .inr ⟨attempt, input, phase, rfl, rfl, rfl⟩
  | renamed treeId moved directories updated =>
    obtain ⟨before, old, after, new, rows, _, changed, rfl⟩ := update?_eq_some updated
    obtain rfl := Option.some.inj changed
    rw [rows]
    rcases List.mem_append.mp member with left | right
    · exact .inl ⟨directory, List.mem_append_left _ left, rfl, rfl, rfl⟩
    · rcases List.mem_cons.mp right with rfl | later
      · exact .inl ⟨old, by simp, rfl, rfl, rfl⟩
      · exact .inl ⟨directory, by simp [later], rfl, rfl, rfl⟩
  | removed before after collector old working =>
    exact .inl ⟨directory, List.mem_of_mem_filter member, rfl, rfl, rfl⟩

theorem Effect.directories_distinct (effect : s.Effect e next)
    (distinct : (s.directories.map (·.id)).Nodup) : (next.directories.map (·.id)).Nodup := by
  cases effect with
  | kept | pinned | unpinned | reserved | settled | collected | found | deleted | ended => exact distinct
  | made attempt input named phase absent => exact nodup_map_append distinct absent
  | renamed treeId moved directories updated =>
    change (directories.map (·.id)).Nodup
    rw [update?_map updated fun changed => by rw [← Option.some.inj changed]]
    exact distinct
  | removed before after collector old working => exact distinct.sublist (List.filter_sublist.map _)

private theorem reserved_of_phase? {attempt : JobAttempt} {input : TreeReservation}
    (phase : s.phase? attempt = some (.reserved input)) :
    ∃ worker ∈ s.attempts, worker.phase = .reserved input := by
  obtain ⟨worker, found, same⟩ := Option.map_eq_some_iff.mp phase
  exact ⟨worker, List.mem_of_find?_eq_some found, same⟩

theorem Matches.step (matching : s.Matches) (keyed : s.cached.Keyed)
    (ran : TreeAction.run limits s e = some t) : t.Matches := by
  have effect := TreeAction.run_effect ran
  have issued := effect.issued
  -- The row of an id that was known keeps what was measured for it.
  have rows : ∀ {id : String} {bytes : Nat} {owner : String}, id ∈ s.issued →
      (∀ row ∈ s.db.trees, row.id = id → row.reservedBytes = bytes ∧ row.ownerUserId = owner) →
      ∀ row ∈ t.db.trees, row.id = id → row.reservedBytes = bytes ∧ row.ownerUserId = owner := by
    intro id bytes owner known held row member same
    rcases effect.rows member with ⟨old, inside, named, sameBytes, sameOwner⟩ | fresh
    · rw [← sameBytes, ← sameOwner]
      exact held old inside (named.trans same)
    · exact absurd (same ▸ known) fresh
  refine ⟨fun worker member input phase => ?_, fun directory member => ?_,
    effect.directories_distinct matching.distinct⟩
  · rcases (run_follows ran).reserved worker member input phase with before | ⟨fresh, trees, given⟩
    · obtain ⟨known, held⟩ := matching.reserved worker before input phase
      exact ⟨issued known, rows known held⟩
    · refine ⟨by simp [given], fun row inside same => ?_⟩
      rw [trees] at inside
      rcases List.mem_append.mp inside with older | new
      · have known : input.id ∈ s.issued := same ▸ keyed.issued row older
        exact absurd known fresh
      · rw [List.mem_singleton.mp new]
        exact ⟨rfl, rfl⟩
  · rcases effect.directories member with ⟨old, inside, same, bytes, owner⟩ |
      ⟨attempt, input, phase, same, bytes, owner⟩
    · obtain ⟨known, held⟩ := matching.directories old inside
      rw [← same, ← bytes, ← owner]
      exact ⟨issued known, rows known held⟩
    · obtain ⟨worker, inside, reserved⟩ := reserved_of_phase? phase
      obtain ⟨known, held⟩ := matching.reserved worker inside input reserved
      rw [same, bytes, owner]
      exact ⟨issued known, rows known held⟩

end TreeSystem

theorem matches_of_reachable (reached : Reachable (treeMachine limits) s) : s.Matches := by
  refine reached.induction ?_ fun reached taken held => held.step (keyed_of_reachable reached) taken
  rintro s ⟨_, _, _, _, directories, _, _, attempts, _⟩
  constructor <;> simp [directories, attempts]

end Bytes

end LatexRenderer
