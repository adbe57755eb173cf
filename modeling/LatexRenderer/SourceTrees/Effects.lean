import LatexRenderer.Model.SourceTrees

/-! # What a step does to the cached trees

The rows, the pins, the directories and the claims of the collectors are all that the safety of the cache
is about. `TreeSystem.Effect` lists what a step may do to them, with what the step has checked before.
-/

namespace LatexRenderer

open Machine

/-- The part of the system that the safety of the cache is about. -/
structure CachedTrees where
  trees : List SourceTreeRow
  readers : List SourceTreeReader
  directories : List TreeDirectory
  collectors : List TreeCollector
  issued : List String

/-- The cached trees of a system. -/
def TreeSystem.cached (system : TreeSystem) : CachedTrees where
  trees := system.db.trees
  readers := system.readers
  directories := system.directories
  collectors := system.collectors
  issued := system.issued

/-- The update of `setTreeStatus`. -/
def SourceTreeRow.setStatus (source : List SourceTreeStatus) (target : SourceTreeStatus)
    (row : SourceTreeRow) : Option SourceTreeRow :=
  if row.status ∈ source then some { row with status := target } else none

/-- What a step does to the cached trees. -/
inductive TreeSystem.Effect (s : TreeSystem) (e : TreeAction) : CachedTrees → Prop
  | kept : Effect s e s.cached
  | pinned (attempt : JobAttempt) (row : SourceTreeRow) (member : row ∈ s.db.trees)
      (ready : row.status = .ready) :
      Effect s e { s.cached with readers := s.readers.insert ⟨row.id, attempt⟩ }
  | reserved (attempt : JobAttempt) (input : TreeReservation) (fresh : input.id ∉ s.issued)
      (absent : ∀ row ∈ s.db.trees, row.id ≠ input.id) :
      Effect s e { s.cached with
        trees := s.db.trees ++ [input.row]
        readers := s.readers ++ [⟨input.id, attempt⟩]
        issued := s.issued ++ [input.id] }
  | unpinned (reader : SourceTreeReader)
      (cause : e = .release reader.attempt ∨ ∃ run ∈ s.recoveries, run.phase = .stopped reader) :
      Effect s e { s.cached with readers := s.readers.filter (· != reader) }
  | made (attempt : JobAttempt) (input : TreeReservation) (named : e = .makeDirectory attempt)
      (phase : s.phase? attempt = some (.reserved input))
      (absent : ∀ directory ∈ s.directories, directory.id ≠ input.id) :
      Effect s e { s.cached with
        directories := s.directories ++
          [{ id := input.id, ownerUserId := input.ownerUserId, bytes := input.reservedBytes }] }
  | renamed (treeId : String) (moved : Bool) (directories : List TreeDirectory)
      (updated : update? (·.id == treeId) (fun directory => some { directory with input := moved })
        s.directories = some directories) :
      Effect s e { s.cached with directories := directories }
  | settled (treeId : String) (source : List SourceTreeStatus) (target : SourceTreeStatus)
      (live : .deleting ∉ source ∧ target ≠ .deleting) (trees : List SourceTreeRow)
      (updated : update? (·.id == treeId) (·.setStatus source target) s.db.trees = some trees) :
      Effect s e { s.cached with trees := trees }
  | collected (runId treeId : String) (free : ∀ reader ∈ s.readers, reader.treeId ≠ treeId)
      (source : List SourceTreeStatus) (trees : List SourceTreeRow)
      (updated : update? (·.id == treeId) (·.setStatus source .deleting) s.db.trees = some trees) :
      Effect s e { s.cached with
        trees := trees
        collectors := s.collectors ++ [{ runId := runId, treeId := treeId }] }
  | found (before after : List TreeCollector) (collector : TreeCollector) (phase : CollectorPhase)
      (old : s.collectors = before ++ collector :: after)
      (gone : phase = .gone → ∀ directory ∈ s.directories, directory.id ≠ collector.treeId)
      (working : collector.phase ≠ .gone) :
      Effect s e { s.cached with
        collectors := before ++ { collector with phase := phase } :: after }
  | removed (before after : List TreeCollector) (collector : TreeCollector)
      (old : s.collectors = before ++ collector :: after) (working : collector.phase ≠ .gone) :
      Effect s e { s.cached with
        directories := s.directories.filter (·.id != collector.treeId)
        collectors := before ++ { collector with phase := .gone } :: after }
  | deleted (collector : TreeCollector) (member : collector ∈ s.collectors) (phase : collector.phase = .gone)
      (free : ∀ reader ∈ s.readers, reader.treeId ≠ collector.treeId)
      (collectors : List TreeCollector) (fewer : List.Sublist collectors s.collectors) :
      Effect s e { s.cached with
        trees := s.db.trees.filter fun row => !(row.id == collector.treeId && row.status == .deleting)
        collectors := collectors }
  | ended (collectors : List TreeCollector) (fewer : List.Sublist collectors s.collectors) :
      Effect s e { s.cached with collectors := collectors }

section Frames

variable {limits : Limits} {action : DatabaseAction} {db next : Database}

private theorem insertJob_trees {row : JobRow} (inserted : db.insertJob row = some next) :
    next.trees = db.trees := by
  obtain ⟨_, eq⟩ := (Option.ite_none_left_eq_some ..).mp inserted
  rw [← Option.some.inj eq]

private theorem insertSource_trees {row : SourceRow} (inserted : db.insertSource row = some next) :
    next.trees = db.trees := by
  obtain ⟨_, eq⟩ := (Option.ite_none_left_eq_some ..).mp inserted
  rw [← Option.some.inj eq]

private theorem updateJob_trees {jobId : String} {change : JobRecord → Option JobRecord}
    (updated : db.updateJob jobId change = some next) : next.trees = db.trees := by
  obtain ⟨_, _, rfl⟩ := Option.map_eq_some_iff.mp updated
  rfl

/-- A transaction on the other tables leaves the cached trees alone. -/
theorem DatabaseAction.run_trees (ran : action.run limits db = some next)
    (others : action.onTrees = false) : next.trees = db.trees := by
  cases action with
  | createRender input =>
    simp only [run, Database.createRender, Option.bind_eq_bind, Option.bind_eq_some_iff] at ran
    obtain ⟨_, _, mid, source, job⟩ := ran
    exact (insertJob_trees job).trans (insertSource_trees source)
  | createRenderFromSource texts input =>
    simp only [run, Database.createRenderFromSource, Option.bind_eq_bind, Option.bind_eq_some_iff] at ran
    obtain ⟨_, _, _, _, _, _, _, _, job⟩ := ran
    exact insertJob_trees job
  | retryRender texts input =>
    simp only [run, Database.retryRender, Option.bind_eq_bind, Option.bind_eq_some_iff] at ran
    obtain ⟨_, _, _, _, _, _, _, _, _, _, job⟩ := ran
    exact insertJob_trees job
  | retrySvg input =>
    simp only [run, Database.retrySvg, Option.bind_eq_bind, Option.bind_eq_some_iff] at ran
    obtain ⟨_, _, _, _, _, _, _, _, updated⟩ := ran
    exact updateJob_trees updated
  | reserveSource input =>
    simp only [run, Database.reserveSource, Option.bind_eq_bind, Option.bind_eq_some_iff] at ran
    obtain ⟨_, _, _, _, inserted⟩ := ran
    exact insertSource_trees inserted
  | reservePreview jobId previewRun =>
    simp only [run, Database.reservePreview, Option.bind_eq_bind, Option.bind_eq_some_iff] at ran
    obtain ⟨_, _, _, _, updated⟩ := ran
    exact updateJob_trees updated
  | source sourceId action =>
    obtain ⟨_, _, rfl⟩ := Option.map_eq_some_iff.mp ran
    rfl
  | job | requestPreview | requestPreviewAgain | claimPreview | recoverPreview | failPreview
  | publishPreview => exact updateJob_trees ran
  | discardReservation | forgetJob | setMaintenanceMode =>
    obtain rfl := Option.some.inj ran
    rfl
  | reserveTree | publishTree | invalidateTree | collectTree | deleteTree => cases others

end Frames

section Inversion

variable {limits : Limits} {s t : TreeSystem} {e : TreeAction}

namespace TreeSystem

/-- An attempt that went on changed nothing but its own phase. -/
theorem advance_eq_some {attempt : JobAttempt} {next : TreePhase → Option TreePhase}
    (advanced : s.advance attempt next = some t) :
    ∃ before worker after phase, s.attempts = before ++ worker :: after ∧ next worker.phase = some phase ∧
      t = { s with attempts := before ++ { worker with phase := phase } :: after } := by
  obtain ⟨attempts, updated, rfl⟩ := Option.map_eq_some_iff.mp advanced
  obtain ⟨before, worker, after, new, old, _, changed, rfl⟩ := update?_eq_some updated
  obtain ⟨phase, moved, rfl⟩ := Option.map_eq_some_iff.mp changed
  exact ⟨before, worker, after, phase, old, moved, rfl⟩

theorem advance_cached {attempt : JobAttempt} {next : TreePhase → Option TreePhase}
    (advanced : s.advance attempt next = some t) : t.cached = s.cached := by
  obtain ⟨_, _, _, _, _, _, rfl⟩ := advance_eq_some advanced
  rfl

/-- A statement of a recovery changed nothing but the recoveries. -/
theorem updateRecovery_eq_some {runId : String} {change : ReaderRecovery → Option ReaderRecovery}
    (updated : s.updateRecovery runId change = some t) :
    ∃ before run after new, s.recoveries = before ++ run :: after ∧
      s.recoveries.find? (·.runId == runId) = some run ∧ change run = some new ∧
      t = { s with recoveries := before ++ new :: after } := by
  obtain ⟨recoveries, found, rfl⟩ := Option.map_eq_some_iff.mp updated
  obtain ⟨before, run, after, new, old, first, changed, rfl⟩ := update?_eq_some found
  exact ⟨before, run, after, new, old, first, changed, rfl⟩

theorem updateRecovery_cached {runId : String} {change : ReaderRecovery → Option ReaderRecovery}
    (updated : s.updateRecovery runId change = some t) : t.cached = s.cached := by
  obtain ⟨_, _, _, _, _, _, _, rfl⟩ := updateRecovery_eq_some updated
  rfl

/-- A step that left the cached trees alone. -/
private theorem Effect.of_same (same : t.cached = s.cached) : s.Effect e t.cached := by
  rw [same]
  exact .kept

private theorem acquire_effect {attempt : JobAttempt} {identity ownerUserId : String} {now : Timestamp}
    (acquired : s.acquire attempt identity ownerUserId now = some t) : s.Effect e t.cached := by
  simp only [acquire] at acquired
  split at acquired
  next row selected =>
    obtain ⟨found, _⟩ := Option.filter_eq_some_iff.mp selected
    have ready := List.find?_some found
    simp only [Bool.and_eq_true, beq_iff_eq, decide_eq_true_eq] at ready
    rw [advance_cached acquired]
    exact .pinned attempt row (List.mem_of_find?_eq_some found) ready.1.2
  next => exact .of_same (advance_cached acquired)

private theorem reserve_effect {attempt : JobAttempt} {input : TreeReservation}
    (reserved : s.reserve limits attempt input = some t) : s.Effect e t.cached := by
  simp only [reserve, Option.bind_eq_bind, Option.bind_eq_some_iff, Option.guard_eq_some',
    exists_const] at reserved
  obtain ⟨fresh, db, inserted, advanced⟩ := reserved
  obtain ⟨⟨_, _, _, _, _, unique⟩, eq⟩ := (Option.ite_none_right_eq_some ..).mp inserted
  rw [advance_cached advanced, ← Option.some.inj eq]
  refine .reserved attempt input fresh fun row member same => ?_
  have other := List.any_eq_false.mp unique row member
  simp [TreeReservation.row, same] at other

private theorem makeDirectory_effect {attempt : JobAttempt} (made : s.makeDirectory attempt = some t) :
    s.Effect (.makeDirectory attempt) t.cached := by
  simp only [makeDirectory] at made
  split at made
  next input phase =>
    obtain ⟨absent, advanced⟩ := (Option.ite_none_left_eq_some ..).mp made
    rw [advance_cached advanced]
    refine .made attempt input rfl phase fun directory member same => absent ?_
    exact List.any_eq_true.mpr ⟨directory, member, beq_iff_eq.mpr same⟩
  next => cases made

private theorem renameInput_effect {treeId : String} {moved : Bool} {mid : TreeSystem}
    (renamed : s.renameInput treeId moved = some mid) (same : t.cached = mid.cached) :
    s.Effect e t.cached := by
  obtain ⟨directories, updated, rfl⟩ := Option.map_eq_some_iff.mp renamed
  rw [same]
  exact .renamed treeId moved directories updated

private theorem moveInput_effect {attempt : JobAttempt} (moved : s.moveInput attempt = some t) :
    s.Effect e t.cached := by
  simp only [moveInput] at moved
  split at moved
  next input phase =>
    obtain ⟨mid, renamed, advanced⟩ := Option.bind_eq_some_iff.mp moved
    exact renameInput_effect renamed (advance_cached advanced)
  next => cases moved

private theorem restoreInput_effect {attempt : JobAttempt} (moved : s.restoreInput attempt = some t) :
    s.Effect e t.cached := by
  simp only [restoreInput] at moved
  split at moved
  next input phase =>
    obtain ⟨mid, renamed, advanced⟩ := Option.bind_eq_some_iff.mp moved
    exact renameInput_effect renamed (advance_cached advanced)
  next => cases moved

/-- A statement that sets the status of a tree, or finds no row to set it of. -/
private theorem setTreeStatus_effect {treeId : String} {source : List SourceTreeStatus}
    {target : SourceTreeStatus} (live : .deleting ∉ source ∧ target ≠ .deleting)
    (same : t.cached = { s.cached with
      trees := ((s.db.setTreeStatus treeId source target).getD s.db).trees }) : s.Effect e t.cached := by
  rw [same]
  cases updated : s.db.setTreeStatus treeId source target with
  | none => exact .kept
  | some db =>
    obtain ⟨trees, found, rfl⟩ := Option.map_eq_some_iff.mp updated
    exact .settled treeId source target live trees found

private theorem publish_effect {attempt : JobAttempt} (published : s.publish attempt = some t) :
    s.Effect e t.cached := by
  simp only [publish] at published
  split at published
  next input phase => exact setTreeStatus_effect (by decide) (advance_cached published)
  next => cases published

private theorem invalidate_effect {attempt : JobAttempt} (invalidated : s.invalidate attempt = some t) :
    s.Effect e t.cached := by
  simp only [invalidate] at invalidated
  split at invalidated
  next treeId hit phase => exact setTreeStatus_effect (by decide) (advance_cached invalidated)
  next => cases invalidated

private theorem release_effect {attempt : JobAttempt} (released : s.release attempt = some t) :
    s.Effect (.release attempt) t.cached := by
  simp only [release] at released
  split at released
  next treeId hit phase =>
    rw [advance_cached released]
    exact .unpinned ⟨treeId, attempt⟩ (.inl rfl)
  next treeId phase =>
    obtain ⟨_, advanced⟩ := (Option.ite_none_left_eq_some ..).mp released
    rw [advance_cached advanced]
    exact .unpinned ⟨treeId, attempt⟩ (.inl rfl)
  next => cases released

private theorem dropReader_effect {runId : String} (dropped : s.dropReader runId = some t) :
    s.Effect e t.cached := by
  simp only [dropReader, Option.bind_eq_bind, Option.bind_eq_some_iff] at dropped
  obtain ⟨run, found, updated⟩ := dropped
  split at updated
  next reader phase =>
    rw [updateRecovery_cached updated]
    exact .unpinned reader (.inr ⟨run, List.mem_of_find?_eq_some found, phase⟩)
  next => cases updated

private theorem collect_effect {runId treeId : String} {input : CollectInput}
    (collected : s.collect runId treeId input = some t) : s.Effect e t.cached := by
  simp only [collect, Option.bind_eq_bind, Option.bind_eq_some_iff, Option.guard_eq_some', exists_const,
    Option.pure_def, Option.some.injEq] at collected
  obtain ⟨_, row, found, chosen, db, updated, rfl⟩ := collected
  obtain ⟨trees, changed, rfl⟩ := Option.map_eq_some_iff.mp updated
  have keyed : row.id = treeId := by simpa using List.find?_some found
  rw [collectible, Bool.and_eq_true, Bool.not_eq_true', List.any_eq_false] at chosen
  refine .collected runId treeId (fun reader member same => ?_) _ trees changed
  exact chosen.1 reader member (beq_iff_eq.mpr (same.trans keyed.symm))

private theorem inspect_effect {runId : String} (inspected : s.inspect runId = some t) :
    s.Effect e t.cached := by
  obtain ⟨collectors, updated, rfl⟩ := Option.map_eq_some_iff.mp inspected
  obtain ⟨before, collector, after, new, old, _, changed, rfl⟩ := update?_eq_some updated
  obtain ⟨claimed, eq⟩ := (Option.ite_none_right_eq_some ..).mp changed
  rw [← Option.some.inj eq]
  refine .found before after collector _ old (fun gone directory member same => ?_) (by simp [claimed])
  have listed : s.directories.any (·.id == collector.treeId) = true :=
    List.any_eq_true.mpr ⟨directory, member, beq_iff_eq.mpr same⟩
  rw [if_pos listed] at gone
  cases gone

private theorem removeDirectory_effect {runId : String} (removed : s.removeDirectory runId = some t) :
    s.Effect e t.cached := by
  simp only [removeDirectory, Option.bind_eq_bind, Option.bind_eq_some_iff, Option.guard_eq_some',
    exists_const] at removed
  obtain ⟨collector, first, found, updated⟩ := removed
  obtain ⟨collectors, changed, rfl⟩ := Option.map_eq_some_iff.mp updated
  obtain ⟨before, other, after, new, old, again, eq, rfl⟩ := update?_eq_some changed
  obtain rfl := Option.some.inj (first.symm.trans again)
  rw [← Option.some.inj eq]
  exact .removed before after collector old (by simp [found])

private theorem deleteTree_effect {runId : String} (deleted : s.deleteTree runId = some t) :
    s.Effect e t.cached := by
  simp only [deleteTree, Option.bind_eq_bind, Option.bind_eq_some_iff, Option.guard_eq_some',
    exists_const, Option.pure_def, Option.some.injEq] at deleted
  obtain ⟨collector, found, gone, rfl⟩ := deleted
  cases pinned : s.readers.any (·.treeId == collector.treeId) with
  | true => exact .ended _ List.filter_sublist
  | false =>
    refine .deleted collector (List.mem_of_find?_eq_some found) gone (fun reader member same => ?_) _
      List.filter_sublist
    exact List.any_eq_false.mp pinned reader member (beq_iff_eq.mpr same)

end TreeSystem

open TreeSystem in
theorem TreeAction.run_effect (ran : e.run limits s = some t) : s.Effect e t.cached := by
  cases e with
  | transact action =>
    obtain ⟨others, transacted⟩ := (Option.ite_none_left_eq_some ..).mp ran
    obtain ⟨db, committed, rfl⟩ := Option.map_eq_some_iff.mp transacted
    have same := DatabaseAction.run_trees committed (by simpa using others)
    refine .of_same ?_
    simp [cached, same]
  | startAttempt attempt =>
    obtain ⟨_, eq⟩ := (Option.ite_none_left_eq_some ..).mp ran
    rw [← Option.some.inj eq]
    exact .kept
  | acquire attempt identity ownerUserId now => exact acquire_effect ran
  | verify attempt =>
    rw [run, TreeSystem.verify] at ran
    exact .of_same (advance_cached ran)
  | reject attempt =>
    rw [run, TreeSystem.reject] at ran
    exact .of_same (advance_cached ran)
  | fallBack attempt =>
    rw [run, TreeSystem.fallBack] at ran
    exact .of_same (advance_cached ran)
  | failPromotion attempt =>
    rw [run, TreeSystem.failPromotion] at ran
    exact .of_same (advance_cached ran)
  | reserve attempt input => exact reserve_effect ran
  | makeDirectory attempt => exact makeDirectory_effect ran
  | moveInput attempt => exact moveInput_effect ran
  | publish attempt => exact publish_effect ran
  | restoreInput attempt => exact restoreInput_effect ran
  | invalidate attempt => exact invalidate_effect ran
  | release attempt => exact release_effect ran
  | startContainer attempt =>
    simp only [run, TreeSystem.startContainer] at ran
    split at ran <;> cases ran <;> exact .kept
  | endContainer attempt | endRecovery runId =>
    obtain rfl := Option.some.inj ran
    exact .kept
  | listReaders runId pending =>
    obtain ⟨_, eq⟩ := (Option.ite_none_right_eq_some ..).mp ran
    rw [← Option.some.inj eq]
    exact .kept
  | checkReader runId =>
    rw [run, TreeSystem.checkReader] at ran
    exact .of_same (updateRecovery_cached ran)
  | stopVerified runId =>
    obtain ⟨reader, _, updated⟩ := Option.bind_eq_some_iff.mp ran
    have same := updateRecovery_cached updated
    exact .of_same same
  | deferReader runId =>
    obtain ⟨reader, _, updated⟩ := Option.bind_eq_some_iff.mp ran
    have same := updateRecovery_cached updated
    exact .of_same same
  | dropReader runId => exact dropReader_effect ran
  | collect runId treeId input => exact collect_effect ran
  | inspect runId => exact inspect_effect ran
  | removeDirectory runId => exact removeDirectory_effect ran
  | deleteTree runId => exact deleteTree_effect ran
  | endCollector runId =>
    obtain rfl := Option.some.inj ran
    exact .ended _ List.filter_sublist

end Inversion

end LatexRenderer
