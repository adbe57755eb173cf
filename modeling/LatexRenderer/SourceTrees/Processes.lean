import LatexRenderer.SourceTrees.Effects

/-! # What a step does to the attempts and the recoveries

A step makes one reservation at most, and a recovery drops a pin only after it has proved the container
of its holder stopped.
-/

namespace LatexRenderer

open Machine

/-- Every reader that a recovery has stopped is one whose container was proved stopped. -/
def TreeSystem.StopsProved (s : TreeSystem) : Prop :=
  ∀ run ∈ s.recoveries, ∀ reader, run.phase = .stopped reader → reader.attempt ∈ s.stoppedContainers

section Processes

variable {limits : Limits} {s t : TreeSystem} {e : TreeAction}

namespace TreeSystem

/-- What a step does to the processes: one reservation may be new, and a reader that a recovery has newly
stopped is proved to be. -/
structure Follows (s t : TreeSystem) : Prop where
  reserved : ∀ worker ∈ t.attempts, ∀ input, worker.phase = .reserved input → worker ∈ s.attempts ∨
    input.id ∉ s.issued ∧ t.db.trees = s.db.trees ++ [input.row] ∧ t.issued = s.issued ++ [input.id]
  stopped : ∀ run ∈ t.recoveries, ∀ reader, run.phase = .stopped reader → run ∈ s.recoveries ∨
    reader.attempt ∈ t.stoppedContainers
  proofs : s.stoppedContainers ⊆ t.stoppedContainers

private theorem follows_of_same (attempts : t.attempts = s.attempts) (recoveries : t.recoveries = s.recoveries)
    (proofs : t.stoppedContainers = s.stoppedContainers) : s.Follows t where
  reserved _ member _ _ := .inl (attempts ▸ member)
  stopped _ member _ _ := .inl (recoveries ▸ member)
  proofs := proofs ▸ List.Subset.refl _

/-- A step on one attempt that reserves nothing. -/
private theorem follows_of_advance {mid : TreeSystem} {attempt : JobAttempt}
    {next : TreePhase → Option TreePhase} (advanced : mid.advance attempt next = some t)
    (attempts : mid.attempts = s.attempts) (recoveries : mid.recoveries = s.recoveries)
    (proofs : mid.stoppedContainers = s.stoppedContainers)
    (none : ∀ {phase new}, next phase = some new → ∀ input, new ≠ .reserved input) : s.Follows t := by
  obtain ⟨before, old, after, new, rows, moved, rfl⟩ := advance_eq_some advanced
  refine ⟨fun worker member input phase => .inl ?_, fun run member _ _ => .inl (recoveries ▸ member),
    proofs ▸ List.Subset.refl _⟩
  rw [← attempts, rows]
  rcases List.mem_append.mp member with left | right
  · exact List.mem_append_left _ left
  · rcases List.mem_cons.mp right with rfl | later
    · exact absurd phase (none moved input)
    · exact List.mem_append_right _ (List.mem_cons_of_mem _ later)

/-- A statement of one recovery that newly stops only what is proved stopped. -/
private theorem follows_of_recovery {mid : TreeSystem} {runId : String}
    {change : ReaderRecovery → Option ReaderRecovery}
    (updated : mid.updateRecovery runId change = some t) (attempts : mid.attempts = s.attempts)
    (recoveries : mid.recoveries = s.recoveries) (proofs : s.stoppedContainers ⊆ mid.stoppedContainers)
    (proved : ∀ {run new}, change run = some new → ∀ reader, new.phase = .stopped reader →
      reader.attempt ∈ mid.stoppedContainers) : s.Follows t := by
  obtain ⟨before, old, after, new, rows, _, changed, rfl⟩ := updateRecovery_eq_some updated
  refine ⟨fun worker member _ _ => .inl (attempts ▸ member), fun run member reader phase => ?_, proofs⟩
  rw [← recoveries, rows]
  rcases List.mem_append.mp member with left | right
  · exact .inl (List.mem_append_left _ left)
  · rcases List.mem_cons.mp right with rfl | later
    · exact .inr (proved changed reader phase)
    · exact .inl (List.mem_append_right _ (List.mem_cons_of_mem _ later))

private theorem reserve_follows {attempt : JobAttempt} {input : TreeReservation}
    (ran : s.reserve limits attempt input = some t) : s.Follows t := by
  simp only [reserve, Option.bind_eq_bind, Option.bind_eq_some_iff, Option.guard_eq_some',
    exists_const] at ran
  obtain ⟨fresh, db, inserted, advanced⟩ := ran
  obtain ⟨_, eq⟩ := (Option.ite_none_right_eq_some ..).mp inserted
  obtain ⟨before, old, after, new, rows, moved, rfl⟩ := advance_eq_some advanced
  refine ⟨fun worker member other phase => ?_, fun run member _ _ => .inl member, List.Subset.refl _⟩
  rw [← Option.some.inj eq]
  rcases List.mem_append.mp member with left | right
  · exact .inl (rows ▸ List.mem_append_left _ left)
  · rcases List.mem_cons.mp right with rfl | later
    · obtain rfl : new = .reserved other := phase
      cases started : old.phase <;> simp only [started] at moved <;> cases moved
      exact .inr ⟨fresh, rfl, rfl⟩
    · exact .inl (rows ▸ List.mem_append_right _ (List.mem_cons_of_mem _ later))

theorem run_follows (ran : TreeAction.run limits s e = some t) : s.Follows t := by
  cases e with
  | transact action =>
    obtain ⟨_, transacted⟩ := (Option.ite_none_left_eq_some ..).mp ran
    obtain ⟨_, _, rfl⟩ := Option.map_eq_some_iff.mp transacted
    exact follows_of_same rfl rfl rfl
  | startAttempt attempt =>
    obtain ⟨_, eq⟩ := (Option.ite_none_left_eq_some ..).mp ran
    rw [← Option.some.inj eq]
    refine ⟨fun worker member input phase => ?_, fun _ member _ _ => .inl member, List.Subset.refl _⟩
    rcases List.mem_append.mp member with before | new
    · exact .inl before
    · rw [List.mem_singleton.mp new] at phase
      cases phase
  | acquire attempt identity ownerUserId now =>
    simp only [TreeAction.run, acquire] at ran
    split at ran <;> refine follows_of_advance ran rfl rfl rfl ?_ <;> rintro old _ moved input rfl <;>
      cases old <;> cases moved
  | verify attempt =>
    rw [TreeAction.run, verify] at ran
    refine follows_of_advance ran rfl rfl rfl ?_
    rintro old _ moved input rfl
    cases old <;> cases moved
  | reject attempt =>
    rw [TreeAction.run, reject] at ran
    refine follows_of_advance ran rfl rfl rfl ?_
    rintro old _ moved input rfl
    cases old <;> cases moved
  | reserve attempt input => exact reserve_follows ran
  | fallBack attempt =>
    rw [TreeAction.run, fallBack] at ran
    refine follows_of_advance ran rfl rfl rfl ?_
    rintro old _ moved input rfl
    cases old <;> cases moved
  | failPromotion attempt =>
    rw [TreeAction.run, failPromotion] at ran
    refine follows_of_advance ran rfl rfl rfl ?_
    rintro old _ moved input rfl
    cases old <;> cases moved
  | makeDirectory attempt =>
    simp only [TreeAction.run, makeDirectory] at ran
    split at ran
    next =>
      obtain ⟨_, advanced⟩ := (Option.ite_none_left_eq_some ..).mp ran
      exact follows_of_advance advanced rfl rfl rfl (by rintro _ _ moved _ rfl; cases moved)
    next => cases ran
  | moveInput attempt =>
    simp only [TreeAction.run, moveInput] at ran
    split at ran
    next =>
      obtain ⟨mid, renamed, advanced⟩ := Option.bind_eq_some_iff.mp ran
      obtain ⟨_, _, rfl⟩ := Option.map_eq_some_iff.mp renamed
      exact follows_of_advance advanced rfl rfl rfl (by rintro _ _ moved _ rfl; cases moved)
    next => cases ran
  | restoreInput attempt =>
    simp only [TreeAction.run, restoreInput] at ran
    split at ran
    next =>
      obtain ⟨mid, renamed, advanced⟩ := Option.bind_eq_some_iff.mp ran
      obtain ⟨_, _, rfl⟩ := Option.map_eq_some_iff.mp renamed
      exact follows_of_advance advanced rfl rfl rfl (by rintro _ _ moved _ rfl; cases moved)
    next => cases ran
  | publish attempt =>
    simp only [TreeAction.run, publish] at ran
    split at ran
    next => exact follows_of_advance ran rfl rfl rfl (by rintro _ _ moved _ rfl; cases moved)
    next => cases ran
  | invalidate attempt =>
    simp only [TreeAction.run, invalidate] at ran
    split at ran
    next => exact follows_of_advance ran rfl rfl rfl (by rintro _ _ moved _ rfl; cases moved)
    next => cases ran
  | release attempt =>
    simp only [TreeAction.run, release] at ran
    split at ran
    next treeId hit _ =>
      refine follows_of_advance ran rfl rfl rfl ?_
      rintro _ _ moved _ rfl
      cases hit <;> cases moved
    next =>
      obtain ⟨_, advanced⟩ := (Option.ite_none_left_eq_some ..).mp ran
      exact follows_of_advance advanced rfl rfl rfl (by rintro _ _ moved _ rfl; cases moved)
    next => cases ran
  | startContainer attempt =>
    simp only [TreeAction.run, startContainer] at ran
    split at ran <;> cases ran <;> exact follows_of_same rfl rfl rfl
  | endContainer attempt | endCollector runId =>
    obtain rfl := Option.some.inj ran
    exact follows_of_same rfl rfl rfl
  | endRecovery runId =>
    obtain rfl := Option.some.inj ran
    exact ⟨fun _ member _ _ => .inl member, fun _ member _ _ => .inl (List.mem_of_mem_filter member),
      List.Subset.refl _⟩
  | listReaders runId pending =>
    obtain ⟨_, eq⟩ := (Option.ite_none_right_eq_some ..).mp ran
    rw [← Option.some.inj eq]
    refine ⟨fun _ member _ _ => .inl member, fun run member reader phase => ?_, List.Subset.refl _⟩
    rcases List.mem_append.mp member with before | new
    · exact .inl before
    · rw [List.mem_singleton.mp new] at phase
      cases phase
  | checkReader runId =>
    rw [TreeAction.run, checkReader] at ran
    refine follows_of_recovery ran rfl rfl (List.Subset.refl _) fun changed reader phase => ?_
    split at changed
    next =>
      rw [← Option.some.inj changed] at phase
      simp only at phase
      split at phase <;> cases phase
    next => cases changed
  | stopVerified runId =>
    obtain ⟨stopping, _, updated⟩ := Option.bind_eq_some_iff.mp ran
    refine follows_of_recovery updated rfl rfl (List.subset_append_left ..) fun changed reader phase => ?_
    rw [← Option.some.inj changed] at phase
    obtain rfl : stopping = reader := RecoveryPhase.stopped.inj phase
    exact List.mem_append_right _ (List.mem_singleton.mpr rfl)
  | deferReader runId =>
    obtain ⟨_, _, updated⟩ := Option.bind_eq_some_iff.mp ran
    refine follows_of_recovery updated rfl rfl (List.Subset.refl _) fun changed reader phase => ?_
    rw [← Option.some.inj changed] at phase
    cases phase
  | dropReader runId =>
    obtain ⟨_, _, updated⟩ := Option.bind_eq_some_iff.mp ran
    split at updated
    next =>
      refine follows_of_recovery updated rfl rfl (List.Subset.refl _) fun changed reader phase => ?_
      rw [← Option.some.inj changed] at phase
      cases phase
    next => cases updated
  | collect runId treeId input =>
    simp only [TreeAction.run, collect, Option.bind_eq_bind, Option.bind_eq_some_iff, Option.pure_def,
      Option.some.injEq] at ran
    obtain ⟨_, _, _, _, _, _, _, _, rfl⟩ := ran
    exact follows_of_same rfl rfl rfl
  | inspect runId =>
    obtain ⟨_, _, rfl⟩ := Option.map_eq_some_iff.mp ran
    exact follows_of_same rfl rfl rfl
  | removeDirectory runId =>
    simp only [TreeAction.run, removeDirectory, Option.bind_eq_bind, Option.bind_eq_some_iff] at ran
    obtain ⟨_, _, _, _, updated⟩ := ran
    obtain ⟨_, _, rfl⟩ := Option.map_eq_some_iff.mp updated
    exact follows_of_same rfl rfl rfl
  | deleteTree runId =>
    simp only [TreeAction.run, deleteTree, Option.bind_eq_bind, Option.bind_eq_some_iff, Option.pure_def,
      Option.some.injEq] at ran
    obtain ⟨_, _, _, _, rfl⟩ := ran
    exact follows_of_same rfl rfl rfl

end TreeSystem

theorem stopsProved_of_reachable (reached : Reachable (treeMachine limits) s) : s.StopsProved := by
  refine reached.induction ?_ ?_
  · rintro s ⟨_, _, _, _, _, _, _, _, recoveries, _⟩ run member
    simp [recoveries] at member
  · intro s e t _ taken held run member reader phase
    have follows := TreeSystem.run_follows taken
    rcases follows.stopped run member reader phase with before | proved
    · exact follows.proofs (held run before reader phase)
    · exact proved

end Processes

end LatexRenderer
