import LatexRenderer.Admission.Transactions
import LatexRenderer.SourceTrees.Bytes

/-! # What the cache of source trees promises

Pins protect rows and directories in every run. The bytes on disk stay counted as long as no attempt makes
its directory after its row is gone, or after a collector has looked for the directory in vain: an attempt
that still holds its pin never does so.
-/

namespace LatexRenderer

open Machine

/-- The condition on the making of a directory: the row is in the table, and no collector that is about to
delete the row has found no directory. -/
def TreeSystem.MakesCounted (s : TreeSystem) (e : TreeAction) : Prop :=
  ∀ attempt input, e = .makeDirectory attempt → s.phase? attempt = some (.reserved input) →
    (∃ row ∈ s.db.trees, row.id = input.id) ∧
      ∀ collector ∈ s.collectors, collector.treeId = input.id → collector.phase ≠ .gone

section Invariants

variable {limits : Limits} {s t : TreeSystem} {e : TreeAction} {next : CachedTrees}

theorem treeMachine_simulates (limits : Limits) :
    Simulates (treeMachine limits) (Reclaim.machine String JobAttempt) (·.cached.reclaim) where
  init := by
    rintro s ⟨_, _, trees, readers, directories, _, _, _, _, collectors, issued⟩
    refine Reclaim.ext ?_ ?_ ?_ ?_ ?_ ?_ ?_ <;>
      simp [TreeSystem.cached, CachedTrees.reclaim, trees, readers, directories, collectors, issued, valuesOf]
  step := by
    intro s e t reached taken
    rcases (TreeAction.run_effect taken).reclaim (keyed_of_reachable reached) with same | ⟨label, moved, _⟩
    · exact .inl same
    · exact .inr ⟨label, moved⟩

/-- Under the condition they fill no storage too late. -/
theorem treeMachine_simulates_kept (limits : Limits) :
    Simulates ((treeMachine limits).restrict TreeSystem.MakesCounted)
      ((Reclaim.machine String JobAttempt).restrict Reclaim.FillsKept) (·.cached.reclaim) where
  init := (treeMachine_simulates limits).init
  step := by
    rintro s e t reached ⟨taken, counted⟩
    rcases (TreeAction.run_effect taken).reclaim (keyed_of_reachable reached.of_restrict) with
      same | ⟨label, moved, fills⟩
    · exact .inl same
    · refine .inr ⟨label, moved, ?_⟩
      intro entry filled
      obtain ⟨attempt, input, named, phase, rfl⟩ := fills entry filled
      obtain ⟨⟨row, member, same⟩, working⟩ := counted attempt input named phase
      refine ⟨?_, ?_⟩
      · by_cases status : row.status = .deleting
        · exact .inr ⟨row, member, same, status⟩
        · exact .inl ⟨row, member, same, status⟩
      · rintro ⟨collector, inside, about, gone⟩
        exact working collector inside about gone

theorem reclaim_sound (reached : Reachable (treeMachine limits) s) : s.cached.reclaim.Sound :=
  Reclaim.sound_of_reachable ((treeMachine_simulates limits).reachable reached)

/-- An attempt that still holds the pin of its reservation meets the condition. -/
theorem TreeSystem.makesCounted_of_pinned (reached : Reachable (treeMachine limits) s)
    (pinned : ∀ attempt input, e = .makeDirectory attempt → s.phase? attempt = some (.reserved input) →
      ⟨input.id, attempt⟩ ∈ s.readers) : s.MakesCounted e := by
  intro attempt input named phase
  have kept := (reclaim_sound reached).fillsKept (pinned attempt input named phase)
  obtain ⟨known, uncleared⟩ := kept input.id rfl
  refine ⟨?_, fun collector member about gone => uncleared ⟨collector, member, about, gone⟩⟩
  rcases known with ⟨row, member, same, _⟩ | ⟨row, member, same, _⟩
  · exact ⟨row, member, same⟩
  · exact ⟨row, member, same⟩

end Invariants

/-- What a step keeps of the pins: the rows and directories of pinned trees, the pins themselves unless
their holder or a recovery that has proved the holder's container stopped drops them, and no new pins on
`deleting` rows. -/
structure TreeSystem.KeepsPins (s : TreeSystem) (e : TreeAction) (t : TreeSystem) : Prop where
  row : ∀ reader ∈ s.readers, ∃ row ∈ t.db.trees, row.id = reader.treeId ∧ row.status ≠ .deleting
  directory : ∀ reader ∈ s.readers, ∀ directory ∈ s.directories, directory.id = reader.treeId →
    ∃ later ∈ t.directories, later.id = reader.treeId
  dropped : ∀ reader ∈ s.readers, reader ∉ t.readers →
    e = .release reader.attempt ∨ reader.attempt ∈ s.stoppedContainers
  acquired : ∀ reader ∈ t.readers, reader ∉ s.readers →
    ∀ row ∈ s.db.trees, row.id = reader.treeId → row.status ≠ .deleting

/-- A tree that has no pin and gets none: its row, if it is still there, is `deleting`. -/
def TreeSystem.Closed (treeId : String) (s : TreeSystem) : Prop :=
  (∀ reader ∈ s.readers, reader.treeId ≠ treeId) ∧
    ∀ row ∈ s.db.trees, row.id = treeId → row.status = .deleting

/-- Every directory has its row, which counts the bytes in it, in all and for its owner. -/
structure TreeSystem.Counted (s : TreeSystem) : Prop where
  row : ∀ directory ∈ s.directories, ∃ row ∈ s.db.trees, row.id = directory.id ∧
    row.reservedBytes = directory.bytes ∧ row.ownerUserId = directory.ownerUserId
  bytes : total (·.bytes) s.directories ≤ total (·.reservedBytes) s.db.trees
  userBytes : ∀ userId, total (·.bytes) (s.directories.filter (·.ownerUserId == userId)) ≤
    total (·.reservedBytes) (s.db.trees.filter (·.ownerUserId == userId))

section Promises

variable {limits : Limits} {s t : TreeSystem} {e : TreeAction}

theorem TreeSystem.keepsPins (reached : Reachable (treeMachine limits) s)
    (ran : TreeAction.run limits s e = some t) : s.KeepsPins e t := by
  have sound := reclaim_sound reached
  have effect := TreeAction.run_effect ran
  have after := reclaim_sound (reached.step ran)
  have moves := effect.reclaim (keyed_of_reachable reached)
  refine ⟨fun reader member => ?_, fun reader member directory inside same => ?_,
    fun reader member gone => ?_, fun reader member new row inside same deleting => ?_⟩
  · have pin : (reader.treeId, reader.attempt) ∈ s.cached.reclaim.pins := member
    have live : reader.treeId ∈ t.cached.reclaim.live := by
      rcases moves with unmoved | ⟨label, moved, _⟩
      · rw [unmoved]
        exact sound.pinned pin
      · exact sound.live moved pin
    exact live
  · have pin : (reader.treeId, reader.attempt) ∈ s.cached.reclaim.pins := member
    have stored : reader.treeId ∈ t.cached.reclaim.stored := by
      have before : reader.treeId ∈ s.cached.reclaim.stored := ⟨directory, inside, same, trivial⟩
      rcases moves with unmoved | ⟨label, moved, _⟩
      · rw [unmoved]
        exact before
      · exact sound.stays moved pin before
    obtain ⟨later, found, named, _⟩ := stored
    exact ⟨later, found, named⟩
  · have dropped : ∀ {next : CachedTrees}, s.Effect e next → reader ∉ next.readers →
        e = .release reader.attempt ∨ reader.attempt ∈ s.stoppedContainers := by
      intro next effect gone
      cases effect with
      | unpinned other cause =>
        have same : reader = other := by
          by_contra apart
          exact gone (List.mem_filter.mpr ⟨member, by simpa using apart⟩)
        rcases same ▸ cause with own | ⟨run, listed, phase⟩
        · exact .inl own
        · exact .inr (stopsProved_of_reachable reached run listed reader phase)
      | pinned attempt row => exact absurd (List.mem_insert_of_mem member) gone
      | reserved => exact absurd (List.mem_append_left _ member) gone
      | _ => exact absurd member gone
    exact dropped effect gone
  · have pin : (reader.treeId, reader.attempt) ∈ t.cached.reclaim.pins := member
    have live := after.pinned pin
    have closed : reader.treeId ∈ s.cached.reclaim.issued ∧ reader.treeId ∉ s.cached.reclaim.live :=
      sound.dead (.inl (.inl ⟨row, inside, same, deleting⟩))
    rcases moves with unmoved | ⟨label, moved, _⟩
    · exact closed.2 (unmoved ▸ live)
    · exact (moved.closed closed).2 live

/-- A tree that is `deleting` stays without pins for the rest of the run. -/
theorem TreeSystem.closed_of_deleting {es : List TreeAction} (reached : Reachable (treeMachine limits) s)
    (run : Run (treeMachine limits) s es t) {row : SourceTreeRow} (member : row ∈ s.db.trees)
    (deleting : row.status = .deleting) : t.Closed row.id := by
  have closed : row.id ∈ t.cached.reclaim.issued ∧ row.id ∉ t.cached.reclaim.live := by
    refine run.stable (P := fun s => row.id ∈ s.cached.reclaim.issued ∧ row.id ∉ s.cached.reclaim.live)
      reached ?_ ((reclaim_sound reached).dead (.inl (.inl ⟨row, member, rfl, deleting⟩)))
    intro s e t reached taken held
    rcases (TreeAction.run_effect taken).reclaim (keyed_of_reachable reached) with same | ⟨label, moved, _⟩
    · rw [same]
      exact held
    · exact moved.closed held
  refine ⟨fun reader pinned same => closed.2 ?_, fun later inside same => ?_⟩
  · have pin : (reader.treeId, reader.attempt) ∈ t.cached.reclaim.pins := pinned
    exact same ▸ (reclaim_sound (run.reachable reached)).pinned pin
  · by_contra live
    exact closed.2 ⟨later, inside, same, live⟩

/-- While the condition is met, what is on disk is counted. -/
theorem TreeSystem.counted (reached : Reachable ((treeMachine limits).restrict MakesCounted) s) :
    s.Counted := by
  have kept := Reclaim.kept_of_reachable ((treeMachine_simulates_kept limits).reachable reached)
  have matching := matches_of_reachable reached.of_restrict
  have covered : ∀ directory ∈ s.directories, ∃ row ∈ s.db.trees, row.id = directory.id ∧
      row.reservedBytes = directory.bytes ∧ row.ownerUserId = directory.ownerUserId := by
    intro directory member
    have present : ∃ row ∈ s.db.trees, row.id = directory.id := by
      rcases kept.stored ⟨directory, member, rfl, trivial⟩ with
        ⟨row, inside, same, _⟩ | ⟨row, inside, same, _⟩
      · exact ⟨row, inside, same⟩
      · exact ⟨row, inside, same⟩
    obtain ⟨row, inside, same⟩ := present
    exact ⟨row, inside, same, (matching.directories directory member).2 row inside same⟩
  refine ⟨covered, total_le_of_matching (·.id) matching.distinct fun directory member => ?_, fun userId => ?_⟩
  · obtain ⟨row, inside, same, bytes, _⟩ := covered directory member
    exact ⟨row, inside, same, bytes.ge⟩
  · refine total_le_of_matching (·.id) (matching.distinct.sublist (List.filter_sublist.map _))
      fun directory member => ?_
    obtain ⟨listed, owned⟩ := List.mem_filter.mp member
    obtain ⟨row, inside, same, bytes, owner⟩ := covered directory listed
    exact ⟨row, List.mem_filter.mpr ⟨inside, by rw [owner]; exact owned⟩, same, bytes.ge⟩

/-- A reservation finds room for its bytes beside all that is counted. -/
theorem TreeSystem.reserve_room {attempt : JobAttempt} {input : TreeReservation}
    (ran : TreeAction.run limits s (.reserve attempt input) = some t) :
    total (·.reservedBytes) s.db.trees + input.reservedBytes ≤ limits.globalTreeBytes ∧
      total (·.reservedBytes) (s.db.trees.filter (·.ownerUserId == input.ownerUserId)) +
        input.reservedBytes ≤ limits.userTreeBytes := by
  simp only [TreeAction.run, reserve, Option.bind_eq_bind, Option.bind_eq_some_iff,
    Option.guard_eq_some', exists_const] at ran
  obtain ⟨_, db, inserted, _⟩ := ran
  obtain ⟨⟨_, _, room, ownRoom, _⟩, _⟩ := (Option.ite_none_right_eq_some ..).mp inserted
  exact ⟨room, ownRoom⟩

end Promises

/-- What the cache promises: in every run, that pins are kept, that a `deleting` tree is never pinned
again, and that an attempt with its pin meets the condition; in the runs that meet the condition, that all
on disk is counted, and that no reservation exceeds the limits together with what is on disk. -/
structure TreeCache (limits : Limits) : Prop where
  pins : ∀ s e t, Reachable (treeMachine limits) s → (treeMachine limits).Step s e t → s.KeepsPins e t
  closed : ∀ s es t, Reachable (treeMachine limits) s → Run (treeMachine limits) s es t →
    ∀ row ∈ s.db.trees, row.status = .deleting → t.Closed row.id
  pinned : ∀ s attempt input, Reachable (treeMachine limits) s →
    s.phase? attempt = some (.reserved input) → ⟨input.id, attempt⟩ ∈ s.readers →
      s.MakesCounted (.makeDirectory attempt)
  counted : ∀ s, Reachable ((treeMachine limits).restrict TreeSystem.MakesCounted) s → s.Counted
  room : ∀ s attempt input t, Reachable ((treeMachine limits).restrict TreeSystem.MakesCounted) s →
    (treeMachine limits).Step s (.reserve attempt input) t →
      total (·.bytes) s.directories + input.reservedBytes ≤ limits.globalTreeBytes ∧
      total (·.bytes) (s.directories.filter (·.ownerUserId == input.ownerUserId)) + input.reservedBytes ≤
        limits.userTreeBytes

/-- The cache of source trees. -/
theorem source_tree_cache (limits : Limits) : TreeCache limits where
  pins _ _ _ reached taken := TreeSystem.keepsPins reached taken
  closed _ _ _ reached run _ member deleting := TreeSystem.closed_of_deleting reached run member deleting
  pinned s attempt input reached phase pinned := by
    refine TreeSystem.makesCounted_of_pinned reached ?_
    rintro _ other ⟨⟩ again
    obtain ⟨⟩ := phase.symm.trans again
    exact pinned
  counted _ reached := TreeSystem.counted reached
  room s attempt input t reached taken := by
    obtain ⟨room, ownRoom⟩ := TreeSystem.reserve_room taken
    have counted := TreeSystem.counted reached
    have bytes := counted.bytes
    have ownBytes := counted.userBytes input.ownerUserId
    omega

/-- The limits of `exampleLimits` with room for a tree. -/
def exampleTreeLimits : Limits :=
  { exampleLimits with maxUserStorageBytes := 50, globalTreeBytes := 20, userTreeBytes := 20 }

/-- A job is claimed, misses the cache and reserves a tree of 6 bytes. -/
def reservedTree : List TreeAction :=
  [.transact (.createRender ⟨"job_1", "source_1", "user_1", "sa_1", "key_1", "1", 5, 0, 0, 600000, [.pdf]⟩),
    .transact (.source "source_1" (.uploadStarted 1)), .transact (.job "job_1" (.uploadStarted 1)),
    .transact (.source "source_1" (.uploadFinished 2 3600002 ["main.tex"])),
    .transact (.job "job_1" (.uploadFinished 2)),
    .transact (.job "job_1" (.claimNext "worker_1" 3 33 none false)),
    .startAttempt ⟨"job_1", 1⟩, .acquire ⟨"job_1", 1⟩ "identity_1" "user_1" 4,
    .reserve ⟨"job_1", 1⟩ ⟨"tree_1", "identity_1", "source_1", "user_1", 6, 4, 1000⟩]

/-- The id of the reservation whose directory is still to be made. -/
def TreePhase.reservedId? : TreePhase → Option String
  | .reserved input => some input.id
  | _ => none

/-- The attempt makes its directory under its pin, and the bytes in it are counted. -/
theorem source_tree_cache_made :
    ∃ system : TreeSystem, total (·.bytes) system.directories = 6 ∧ system.Counted := by
  have replayed : (replay? (TreeAction.run exampleTreeLimits) {} reservedTree).any (fun system =>
      decide (⟨"tree_1", ⟨"job_1", 1⟩⟩ ∈ system.readers) &&
      (system.phase? ⟨"job_1", 1⟩).any (·.reservedId? == some "tree_1") &&
      (TreeAction.run exampleTreeLimits system (.makeDirectory ⟨"job_1", 1⟩)).any
        fun made => total (·.bytes) made.directories == 6) = true := by decide
  obtain ⟨system, run, check⟩ := exists_run_of_replay? replayed
  simp only [Bool.and_eq_true, decide_eq_true_eq, Option.any_eq_true] at check
  obtain ⟨⟨pinned, phase, phased, named⟩, made, ran, bytes⟩ := check
  have early := run.restrict TreeSystem.MakesCounted (by simp [reservedTree, TreeSystem.MakesCounted])
  have reached : Reachable ((treeMachine exampleTreeLimits).restrict TreeSystem.MakesCounted) system :=
    ⟨{}, _, ⟨rfl, rfl, rfl, rfl, rfl, rfl, rfl, rfl, rfl, rfl, rfl⟩, early⟩
  cases phase with
  | reserved input =>
    have own : input.id = "tree_1" := Option.some.inj (beq_iff_eq.mp named)
    have cache := source_tree_cache exampleTreeLimits
    have counted := cache.pinned system ⟨"job_1", 1⟩ input reached.of_restrict phased (own ▸ pinned)
    exact ⟨made, beq_iff_eq.mp bytes, cache.counted made (reached.step ⟨ran, counted⟩)⟩
  | _ => cases named

/-- The attempt stalls after its reservation. Its lease expires and is recovered, its pin is dropped, the
collector finds no directory and deletes the row; then the attempt makes the directory. -/
def stalledPromotion : List TreeAction :=
  reservedTree ++
    [.transact (.job "job_1" (.claimExpiredLease ⟨.validating, "worker_1", 33, 1, by decide⟩ "worker_2" 40 300040)),
      .transact (.job "job_1" (.worker ⟨recoveryOwner "worker_2" 2, 2⟩ (.recoverQueued 41))),
      .listReaders "recovery_1" [⟨"tree_1", ⟨"job_1", 1⟩⟩], .checkReader "recovery_1",
      .stopVerified "recovery_1", .dropReader "recovery_1", .collect "collector_1" "tree_1" ⟨false, 20, 20, 50⟩,
      .inspect "collector_1", .deleteTree "collector_1", .makeDirectory ⟨"job_1", 1⟩]

/-- Without the condition a directory is left that no row counts. -/
theorem source_tree_cache_fails :
    ¬ ∀ system, Reachable (treeMachine exampleTreeLimits) system → system.Counted := by
  intro counted
  have replayed : (replay? (TreeAction.run exampleTreeLimits) {} stalledPromotion).any (fun system =>
      !system.directories.isEmpty && system.db.trees.isEmpty) = true := by decide
  obtain ⟨system, run, check⟩ := exists_run_of_replay? replayed
  simp only [Bool.and_eq_true, Bool.not_eq_true', List.isEmpty_eq_false_iff_exists_mem,
    List.isEmpty_iff] at check
  obtain ⟨⟨directory, member⟩, empty⟩ := check
  have promise := counted system ⟨{}, _, ⟨rfl, rfl, rfl, rfl, rfl, rfl, rfl, rfl, rfl, rfl, rfl⟩, run⟩
  obtain ⟨row, inside, _⟩ := promise.row directory member
  simp [empty] at inside

end LatexRenderer
