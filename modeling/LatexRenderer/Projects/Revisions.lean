import Mathlib.Data.List.Nodup
import LatexRenderer.Admission.Transactions
import LatexRenderer.Model.ProjectTransactions

/-! # The revisions of a project

Every transaction that returns has left the revisions as they were or added one behind them, under the number that comes
next. The lock makes what the attach reads and what it inserts one step, so the numbers of a project have no gap and none
comes twice, whatever the statements of the callers are interleaved with.
-/

namespace LatexRenderer

open Machine Process

variable {limits : Limits} {store next : SourceStore} {input : AttachRevisionInput} {revision : ProjectRevisionRow}
  {projectId : String}

/-- The revisions of a project in the order in which they were inserted. -/
def revisionsOf (projectId : String) (revisions : List ProjectRevisionRow) : List ProjectRevisionRow :=
  revisions.filter (·.projectId == projectId)

/-- A revision of the project of an attach over its source and entrypoint. -/
def ProjectRevisionRow.Answers (input : AttachRevisionInput) (row : ProjectRevisionRow) : Prop :=
  row.projectId = input.projectId ∧ row.sourceId = input.sourceId ∧ row.entrypoint = input.entrypoint

/-- What the numbers and the unique columns of the table amount to. -/
structure RevisionsNumbered (revisions : List ProjectRevisionRow) : Prop where
  numbers : ∀ projectId, (revisionsOf projectId revisions).map (·.revisionNumber) =
    List.range' 1 (revisionsOf projectId revisions).length
  pairs : (revisions.map fun row => (row.projectId, row.sourceId, row.entrypoint)).Nodup

section Programs

/-- The revisions and projects stay as they are. -/
def SameProjects (s t : SourceStore) : Prop := t.revisions = s.revisions ∧ t.projects = s.projects

theorem transactStatement_returns (action : DatabaseAction) :
    (transactStatement limits action).Returns (fun _ t => SameProjects store t) store := by
  refine returns_act fun _ _ t moved => ?_
  cases transacted : store.transact limits action with
  | none =>
    simp only [transacted] at moved
    cases moved
  | some after =>
    simp only [transacted] at moved
    cases moved
    obtain ⟨-, ran⟩ := (Option.ite_none_left_eq_some ..).mp transacted
    obtain ⟨db, -, rfl⟩ := Option.map_eq_some_iff.mp ran
    exact ⟨rfl, rfl⟩

theorem transactStatements_return (actions : List DatabaseAction) :
    (each actions (transactStatement limits)).Returns (fun _ t => SameProjects store t) store := by
  refine returns_each (fun action _ t same => ?_) ⟨rfl, rfl⟩
  refine (transactStatement_returns action).mono fun _ after later => ?_
  exact ⟨later.1.trans same.1, later.2.trans same.2⟩

theorem createProject_returns (id ownerUserId displayName : String) (timestamp : Timestamp) :
    (createProject id ownerUserId displayName timestamp).Returns (fun _ t => t.revisions = store.revisions) store := by
  refine .bind (returns_ask fun _ _ _ => .bind (returns_act fun _ _ t moved => ?_))
  split at moved
  · cases moved
  · cases moved
    exact returns_modify rfl

theorem updateProject_returns (change : ProjectRow → Option ProjectRow) :
    (updateProject projectId change).Returns (fun _ t => t.revisions = store.revisions) store := by
  refine .bind (returns_ask fun _ _ _ => .bind (returns_act fun _ _ t moved => ?_))
  cases found : update? (·.id == projectId) change store.projects with
  | none =>
    simp only [found] at moved
    cases moved
  | some projects =>
    simp only [found] at moved
    cases moved
    exact returns_modify rfl

/-- The insertion adds a revision under the next number. -/
theorem insertAudited_returns : (insertAudited input).Returns (fun value t =>
    value = input.row (store.nextRevisionNumber input.projectId) ∧ t.revisions = store.revisions ++ [value]) store := by
  refine .bind (.bind (returns_ask fun _ number selected => returns_act fun _ row t moved => ?_))
  cases selected
  dsimp only at moved
  split at moved
  · cases moved
  · cases moved
    exact .bind (returns_modify ⟨rfl, rfl⟩)

/-- What an attach has found and done when it returns. -/
structure Attached (input : AttachRevisionInput) (s : SourceStore) (revision : ProjectRevisionRow) (t : SourceStore) :
    Prop where
  project : ∃ project, s.getOwned input.projectId input.userId = some project
  source : ∃ source, s.getOwnedReady input.sourceId input.userId input.timestamp = some source
  kept : ∀ existing, s.revisionForSource input.projectId input.sourceId input.entrypoint = some existing →
    revision = existing ∧ t.revisions = s.revisions
  added : s.revisionForSource input.projectId input.sourceId input.entrypoint = none →
    revision = input.row (s.nextRevisionNumber input.projectId) ∧ t.revisions = s.revisions ++ [revision]

theorem selectRow_returns {β : Type} {statement : ProjectStatement} {error : AppError} {query : SourceStore → Option β}
    {R : β → SourceStore → Prop} (reads : ∀ row, query store = some row → R row store) :
    (selectRow statement error query).Returns R store := by
  refine returns_ask fun _ row selected => reads row ?_
  cases found : query store with
  | none =>
    rw [found] at selected
    cases selected
  | some other =>
    rw [found] at selected
    cases selected
    rfl

theorem attachRevisionInTransaction_returns : (attachRevisionInTransaction input).Returns (Attached input store) store := by
  refine .bind (returns_ask fun _ _ _ => .bind (returns_require fun _ => .bind (selectRow_returns fun project owned => ?_)))
  refine .bind (selectRow_returns fun source ready => .bind (returns_require fun _ => .bind (returns_ask fun _ existing found => ?_)))
  cases found
  cases look : store.revisionForSource input.projectId input.sourceId input.entrypoint with
  | some existing =>
    refine .bind (returns_pure (.bind (returns_modify (returns_pure ?_))))
    refine ⟨⟨project, owned⟩, ⟨source, ready⟩, fun other found => ?_, fun none => ?_⟩
    · exact ⟨Option.some.inj (look.symm.trans found), rfl⟩
    · rw [look] at none
      cases none
  | none =>
    refine .bind (insertAudited_returns.mono fun value t inserted => .bind (returns_modify (returns_pure ?_)))
    refine ⟨⟨project, owned⟩, ⟨source, ready⟩, fun other found => ?_, fun _ => inserted⟩
    rw [look] at found
    cases found

/-- The statements of an attach that returns come to the atomic `attachRevision`. -/
theorem attachRevisionInTransaction_refines : (attachRevisionInTransaction input).Returns
    (fun _ t => store.attachRevision input = .ok t.toProjectTables) store := by
  refine .bind (returns_ask fun _ _ writable => .bind (returns_require fun valid => ?_))
  refine .bind (selectRow_returns fun project owned => .bind (selectRow_returns fun source ready => ?_))
  refine .bind (returns_require fun listed => .bind (returns_ask fun _ existing found => ?_))
  cases found
  have computed : store.attachRevision input =
      (store.revisionForSource input.projectId input.sourceId input.entrypoint).elim
        (.ok ((store.insertRevision input).touch project.id input.timestamp))
        fun _ => .ok (store.touch project.id input.timestamp) := by
    unfold ProjectTables.attachRevision
    simp only [writable, valid, owned, ready, bind, Except.bind]
    rw [if_neg (by simp), if_neg (fun missing => missing listed)]
    cases store.revisionForSource input.projectId input.sourceId input.entrypoint <;> rfl
  rw [computed]
  cases look : store.revisionForSource input.projectId input.sourceId input.entrypoint with
  | some existing => exact .bind (returns_pure (.bind (returns_modify (returns_pure rfl))))
  | none =>
    refine .bind (.bind (.bind (returns_ask fun _ number selected => returns_act fun _ row t moved => ?_)))
    cases selected
    dsimp only at moved
    split at moved
    · cases moved
    · cases moved
      exact .bind (returns_modify (returns_pure (.bind (returns_modify (returns_pure rfl)))))

/-- What a transaction has done when it returns: an attach works on what the statements before it leave. -/
def ProjectCall.Outcome (limits : Limits) (store : SourceStore) :
    ProjectCall → Option ProjectRevisionRow → SourceStore → Prop
  | .attachRevision input before _, value, t => ∃ replies mid revision after,
      Service.exec (each before (transactStatement limits)) store replies = (.ret (), mid) ∧ SameProjects store mid ∧
        Attached input mid revision after ∧ value = some revision ∧ t.revisions = after.revisions
  | _, value, t => value = none ∧ t.revisions = store.revisions

theorem ProjectCall.program_returns (call : ProjectCall) :
    (call.program limits).Returns (call.Outcome limits store) store := by
  cases call with
  | create id ownerUserId displayName timestamp =>
    exact .bind ((createProject_returns id ownerUserId displayName timestamp).mono fun _ t same => returns_pure ⟨rfl, same⟩)
  | rename id ownerUserId displayName timestamp =>
    exact .bind ((updateProject_returns _).mono fun _ t same => returns_pure ⟨rfl, same⟩)
  | delete id ownerUserId timestamp =>
    exact .bind ((updateProject_returns _).mono fun _ t same => returns_pure ⟨rfl, same⟩)
  | transact action =>
    exact .bind ((transactStatement_returns action).mono fun _ t same => returns_pure ⟨rfl, same.1⟩)
  | attachRevision input before after =>
    refine .bind (((returns_reached _ store).and (transactStatements_return before)).mono ?_)
    rintro ⟨⟩ mid ⟨⟨replies, ran⟩, same⟩
    refine .bind (attachRevisionInTransaction_returns.mono fun revision attached done => ?_)
    refine .bind ((transactStatements_return after).mono fun _ t later => returns_pure ?_)
    exact ⟨replies, mid, revision, attached, ran, same, done, rfl, later.1⟩

end Programs

section Numbers

variable {revisions : List ProjectRevisionRow}

theorem foldr_max_range' (first count : ℕ) : (List.range' first (count + 1)).foldr max 0 = first + count := by
  induction count generalizing first with
  | zero => simp
  | succ count ih =>
    rw [List.range'_succ, List.foldr_cons, ih (first + 1)]
    omega

theorem nextRevisionNumber_eq (numbered : RevisionsNumbered store.revisions) :
    store.nextRevisionNumber projectId = (revisionsOf projectId store.revisions).length + 1 := by
  show ((revisionsOf projectId store.revisions).map (·.revisionNumber)).foldr max 0 + 1 = _
  rw [numbered.numbers projectId]
  cases (revisionsOf projectId store.revisions).length with
  | zero => rfl
  | succ count => rw [foldr_max_range', Nat.add_comm 1]

theorem RevisionsNumbered.append (numbered : RevisionsNumbered revisions)
    (number : revision.revisionNumber = (revisionsOf revision.projectId revisions).length + 1)
    (fresh : ∀ row ∈ revisions, (row.projectId, row.sourceId, row.entrypoint) ≠
      (revision.projectId, revision.sourceId, revision.entrypoint)) : RevisionsNumbered (revisions ++ [revision]) := by
  constructor
  · intro projectId
    by_cases own : revision.projectId = projectId
    · have grown : revisionsOf projectId (revisions ++ [revision]) = revisionsOf projectId revisions ++ [revision] := by
        rw [revisionsOf, List.filter_append, List.filter_cons_of_pos (by simpa using own)]
        rfl
      rw [grown, List.map_append, numbered.numbers, List.length_append, List.map_singleton, number, own,
        List.length_singleton, List.range'_1_concat, Nat.add_comm 1]
    · have same : revisionsOf projectId (revisions ++ [revision]) = revisionsOf projectId revisions := by
        rw [revisionsOf, List.filter_append, List.filter_cons_of_neg (by simpa using own)]
        exact List.append_nil _
      rw [same]
      exact numbered.numbers projectId
  · rw [List.map_append, List.map_singleton]
    refine List.nodup_append.mpr ⟨numbered.pairs, List.nodup_singleton _, fun a member b new same => ?_⟩
    obtain ⟨row, there, rfl⟩ := List.mem_map.mp member
    exact fresh row there (same.trans (List.mem_singleton.mp new))

theorem revisionForSource_none (absent : store.revisionForSource input.projectId input.sourceId input.entrypoint = none) :
    ∀ row ∈ store.revisions, ¬row.Answers input := by
  intro row member answers
  have skipped := List.find?_eq_none.mp absent row member
  simp [answers.1, answers.2.1, answers.2.2] at skipped

/-- There is one revision for a source and entrypoint at most, and the query finds it. -/
theorem revisionForSource_of_mem (numbered : RevisionsNumbered store.revisions) (member : revision ∈ store.revisions)
    (answers : revision.Answers input) :
    store.revisionForSource input.projectId input.sourceId input.entrypoint = some revision := by
  cases found : store.revisionForSource input.projectId input.sourceId input.entrypoint with
  | none => exact absurd answers (revisionForSource_none found revision member)
  | some first =>
    have there := List.mem_of_find?_eq_some found
    have same := List.find?_some found
    simp only [Bool.and_eq_true, beq_iff_eq] at same
    refine congrArg some (List.inj_on_of_nodup_map numbered.pairs there member ?_)
    rw [same.1.1, same.1.2, same.2, answers.1, answers.2.1, answers.2.2]

theorem Attached.numbered {after : SourceStore} (attached : Attached input store revision after)
    (numbered : RevisionsNumbered store.revisions) : RevisionsNumbered after.revisions := by
  cases found : store.revisionForSource input.projectId input.sourceId input.entrypoint with
  | some existing => exact (attached.kept existing found).2 ▸ numbered
  | none =>
    obtain ⟨rfl, grown⟩ := attached.added found
    rw [grown]
    refine numbered.append (nextRevisionNumber_eq numbered) fun row member same => ?_
    simp only [AttachRevisionInput.row, Prod.mk.injEq] at same
    exact revisionForSource_none found row member ⟨same.1, same.2.1, same.2.2⟩

end Numbers

section Runs

variable {host later : Serial ProjectCall ProjectStatement SourceStore Unit AppError (Option ProjectRevisionRow)}

theorem revisionsNumbered_reachable (reached : Reachable (projectMachine limits) host) :
    RevisionsNumbered host.committed.revisions := by
  have atomic := serial_simulates.reachable reached
  refine atomic.induction (P := fun store => RevisionsNumbered store.revisions) ?_ ?_
  · intro store start
    have empty : store.revisions = [] := start.2.2.2.2.1
    rw [empty]
    exact ⟨fun _ => rfl, List.nodup_nil⟩
  · rintro store call t - ⟨value, commits⟩ numbered
    have outcome := commits.returns call.program_returns
    cases call with
    | attachRevision input before after =>
      obtain ⟨replies, mid, revision, attached, -, same, done, -, revisions⟩ := outcome
      exact revisions ▸ done.numbered (same.1 ▸ numbered)
    | _ => exact outcome.2 ▸ numbered

/-- What holds of the revisions at every moment. An attach that is about to commit returns the revision that is there for
its source and entrypoint and adds none, or adds one; an attach to a project that the caller has not got, or over a source
that is not the caller's, changes nothing whatever comes next. -/
structure ProjectRevisions (limits : Limits)
    (host : Serial ProjectCall ProjectStatement SourceStore Unit AppError (Option ProjectRevisionRow)) : Prop where
  numbers : ∀ projectId, (revisionsOf projectId host.committed.revisions).map (·.revisionNumber) =
    List.range' 1 (revisionsOf projectId host.committed.revisions).length
  kept : ∀ input before after revision working,
    host.writing = some ⟨.attachRevision input before after, .ret (some revision), working⟩ →
      ∀ existing ∈ host.committed.revisions, existing.Answers input →
        revision = existing ∧ working.revisions = host.committed.revisions
  added : ∀ input before after revision working,
    host.writing = some ⟨.attachRevision input before after, .ret (some revision), working⟩ →
      (∀ existing ∈ host.committed.revisions, ¬existing.Answers input) →
        revision.Answers input ∧ working.revisions = host.committed.revisions ++ [revision]
  refused : ∀ input before after rest working event later,
    host.writing = some ⟨.attachRevision input before after, rest, working⟩ →
      ((∀ project ∈ host.committed.projects, project.id = input.projectId → ¬project.owned input.userId) ∨
        ∀ replies mid, Service.exec (each before (transactStatement limits)) host.committed replies = (.ret (), mid) →
          ∀ source ∈ mid.db.sources, source.id = input.sourceId → source.ownerUserId ≠ input.userId) →
      (projectMachine limits).Step host event later → later.committed = host.committed

/-- In every interleaving of the statements of any number of callers, at every moment. -/
theorem projectRevisions_sound (reached : Reachable (projectMachine limits) host) : ProjectRevisions limits host := by
  have numbered := revisionsNumbered_reachable reached
  have attaches : ∀ {input before after revision working},
      host.writing = some ⟨.attachRevision input before after, .ret revision, working⟩ →
        ProjectCall.Outcome limits host.committed (.attachRevision input before after) revision working :=
    fun writing => (serial_commits reached writing).returns (ProjectCall.program_returns _)
  constructor
  · exact numbered.numbers
  · intro input before after revision working writing existing member answers
    obtain ⟨replies, mid, made, attached, -, same, done, returned, revisions⟩ := attaches writing
    cases returned
    have found := revisionForSource_of_mem (same.1 ▸ numbered) (same.1 ▸ member) answers
    obtain ⟨rfl, unchanged⟩ := done.kept existing found
    exact ⟨rfl, revisions.trans (unchanged.trans same.1)⟩
  · intro input before after revision working writing absent
    obtain ⟨replies, mid, made, attached, -, same, done, returned, revisions⟩ := attaches writing
    cases returned
    have missing : mid.revisionForSource input.projectId input.sourceId input.entrypoint = none := by
      cases found : mid.revisionForSource input.projectId input.sourceId input.entrypoint with
      | none => rfl
      | some row =>
        have there := List.mem_of_find?_eq_some found
        have answers := List.find?_some found
        simp only [Bool.and_eq_true, beq_iff_eq] at answers
        exact absurd ⟨answers.1.1, answers.1.2, answers.2⟩ (absent row (same.1 ▸ there))
    obtain ⟨rfl, grown⟩ := done.added missing
    exact ⟨⟨rfl, rfl, rfl⟩, revisions.trans (grown.trans (same.1 ▸ rfl))⟩
  · intro input before after rest working event later writing unfit taken
    rcases serial_committed reached taken with same | ⟨call, value, about, commits⟩
    · exact same
    · rw [writing] at about
      cases about
      obtain ⟨replies, mid, made, attached, ran, same, done, -, -⟩ := attaches writing
      obtain ⟨project, owned⟩ := done.project
      obtain ⟨source, ready⟩ := done.source
      have own := List.find?_some owned
      have ours := List.find?_some ready
      simp only [Bool.and_eq_true, beq_iff_eq, decide_eq_true_eq] at own ours
      rcases unfit with gone | foreign
      · exact absurd own.2 (gone project (same.2 ▸ List.mem_of_find?_eq_some owned) own.1)
      · exact absurd ours.1.2 (foreign replies mid ran source (List.mem_of_find?_eq_some ready) ours.1.1)

/-- A source is uploaded and attached to a project under two entrypoints, the first of them twice. -/
def attachedTwice : List (ProjectCall × List (Reply Unit)) :=
  [(.transact (.reserveSource ⟨"source_1", "user_1", 5, 0, 0, 600000⟩), [.done ()]),
    (.transact (.source "source_1" (.uploadStarted 1)), [.done ()]),
    (.transact (.source "source_1" (.uploadFinished 2 3600002 ["main.tex", "other.tex"])), [.done ()]),
    (.create "project_1" "user_1" "Thesis" 3, List.replicate 3 (.done ())),
    (.attachRevision ⟨"revision_1", "user_1", "project_1", "source_1", "main.tex", "", "", [.pdf], 4⟩ [] [],
      List.replicate 8 (.done ())),
    (.attachRevision ⟨"revision_2", "user_1", "project_1", "source_1", "main.tex", "", "", [.pdf], 5⟩ [] [],
      List.replicate 8 (.done ())),
    (.attachRevision ⟨"revision_3", "user_1", "project_1", "source_1", "other.tex", "", "", [.pdf], 6⟩ [] [],
      List.replicate 8 (.done ()))]

theorem projectRevisions_sound_twice : ∃ host, ProjectRevisions exampleLimits host ∧
    host.committed.revisions.map (fun row => (row.id, row.revisionNumber)) = [("revision_1", 1), ("revision_3", 2)] := by
  have replayed : (replay? (committed? (ProjectCall.program exampleLimits)) {} attachedTwice).any (fun store =>
      decide (store.revisions.map (fun row => (row.id, row.revisionNumber)) = [("revision_1", 1), ("revision_3", 2)])) =
        true := by decide
  obtain ⟨store, ran, check⟩ := (Option.any_eq_true ..).mp replayed
  have reached : Reachable (projectMachine exampleLimits) ⟨store, none⟩ :=
    serial_of_atomic (atomic_of_replay? ⟨rfl, rfl, rfl, rfl, rfl, rfl, rfl⟩ ran)
  exact ⟨_, projectRevisions_sound reached, of_decide_eq_true check⟩

end Runs

end LatexRenderer
