import LatexRenderer.Deploy.ImageRecords

/-! # Runs of the image manager and their outcomes

A request ends with every record true, and a start of the manager brings the record of the operation that it
finds running up to date. Where a crash or an error breaks this, the journal went before the record was
written, or the record of an operation that failed leaves a journal that a later start commits.
-/

namespace LatexRenderer

open Machine

section Requests

variable {inventories : List Char → ImageInventory} {s t : ImageHost} {id : Nat}

theorem tells_activateApplied {runtime : RuntimeRecord} (working : Working id s) :
    Tells (activateApplied inventories id runtime) (fun _ => Performed id) (fun _ => Stopped id) s :=
  .bind (.view (working.visit trivial) (tells_activateAndPersistState working working.ongoing.held rfl))

/-- Every task ends with what it has begun committed, or with nothing committed. -/
theorem tells_run {task : ImageTask} (working : Working id s) :
    Tells (task.run inventories id) (fun _ => Performed id) (fun _ => Stopped id) s := by
  have visit : OutcomeVisit .prepare s := working.visit trivial
  cases task with
  | apply => exact .bind (.ask visit (fun _ => working.stopped) fun _ _ _ => tells_activateApplied working)
  | rollback =>
    refine .bind (.view (working.visit trivial) ?_)
    cases s.memory.previous with
    | none => exact working.stopped
    | some target =>
      exact .bind (.ask visit (fun _ => working.stopped) fun _ _ _ =>
        tells_activateAndPersistState working working.ongoing.held rfl)
  | refresh =>
    refine .bind (.ask visit (fun _ => working.stopped) fun _ answer _ => ?_)
    split
    · exact working.performed
    · exact tells_activateApplied working
  | revalidate =>
    refine .bind (.ask visit (fun _ => working.stopped) fun _ _ _ => .bind (.view (working.visit trivial) ?_))
    exact tells_renewInventory (fun _ _ listing plain => (working.listing listing).visit plain)
      (fun _ _ listing => (working.listing listing).stopped) fun _ listing => (working.listing listing).performed
  | cleanup =>
    refine .bind (.ask visit (fun _ => working.stopped) fun _ _ _ => tells_modify (working.visit trivial)
      (fun _ => working.stopped) fun _ _ => ?_)
    exact (working.matching (t := s.persist) ⟨rfl, rfl, rfl, rfl, rfl⟩ working.ongoing.held
      working.ongoing.held).performed

theorem record_same {status : Option OperationStatus} : (s.record id status).operation id = status := if_pos rfl

theorem record_other {status : Option OperationStatus} {other : Nat} (different : other ≠ id) :
    (s.record id status).operation other = s.operation other := if_neg different

/-- The record of an operation that ended: what it has begun is committed when it succeeded, and nothing is
when it failed, and its journal leads to nothing. -/
theorem Ongoing.finish (ongoing : Ongoing id s) {status : OperationStatus} (ended : status ≠ .running)
    (succeeded : status = .succeeded → s.begun id = true → s.committed id = true)
    (failed : s.committed id = true → status = .succeeded)
    (left : ∀ journal, s.journal = some journal → journal.operationId = id → status = .failed ∧
      rendererImageFromEnv s.env ≠ journal.newImageId.value) : Quiet (s.record id (some status)) := by
  have tracked := ongoing.tracked
  refine ⟨⟨fun journal there => ?_, fun journal there => ?_, fun other done begun => ?_, fun other done => ?_,
    fun other absent => ?_⟩, fun other runs => ?_⟩
  · have readable := tracked.readable journal there
    exact ⟨readable.previous, readable.next, readable.image, readable.env⟩
  · by_cases own : journal.operationId = id
    · obtain ⟨rfl, old⟩ := left journal there own
      exact .inr ⟨own ▸ record_same, old⟩
    · rw [record_other own]
      exact tracked.pending journal there
  · by_cases own : other = id
    · subst own
      rw [record_same] at done
      exact succeeded (Option.some.inj done) begun
    · rw [record_other own] at done
      exact tracked.succeeded other done begun
  · by_cases own : other = id
    · subst own
      rw [record_same, failed done]
      exact .inl rfl
    · rw [record_other own]
      exact tracked.committed other done
  · by_cases own : other = id
    · subst own
      rw [record_same] at absent
      cases absent
    · rw [record_other own] at absent
      exact tracked.known other absent
  · by_cases own : other = id
    · subst own
      rw [record_same] at runs
      exact ended (Option.some.inj runs)
    · rw [record_other own] at runs
      exact own (ongoing.only other runs)

theorem tells_persist {site : ImageSite} {E : ImageError → ImageHost → Prop} {Q : Bool → ImageHost → Prop}
    (quiet : Quiet s) (plain : OutcomeStep site s) (goes : ∀ persisted t, Quiet t → Q persisted t) :
    Tells (Process.attempt (Process.modify site ImageHost.persist)) Q E s :=
  .attempt (tells_modify (quiet.visit plain) (fun _ => goes false s quiet) fun _ _ =>
    goes true _ (quiet.matching ⟨rfl, rfl, rfl, rfl, rfl⟩))

theorem tells_finishOperationSucceeded {E : ImageError → ImageHost → Prop} (performed : Performed id s) :
    Tells (finishOperationSucceeded id) (fun _ => Quiet) E s := by
  have visit : OutcomeVisit .saveSucceeded s := by
    refine ⟨performed.ongoing.tracked, fun kept => ?_, trivial⟩
    have uncommitted : s.committed id = false :=
      Bool.eq_false_iff.mpr fun done => kept (.inr ⟨id, performed.ongoing.running, done⟩)
    have before : OutcomeVisit .look s := performed.ongoing.visit uncommitted trivial
    exact before.recorded fun lost => lost.elim (fun stray => kept (.inl stray)) fun never => never
  refine .bind (.attempt (tells_modify visit (fun fine => (fine trivial).elim) fun _ _ => ?_))
  have quiet : Quiet (s.record id (some .succeeded)) := performed.ongoing.finish (by decide)
    (fun _ => performed.committed) (fun _ => rfl) fun journal there own => absurd own (performed.foreign journal there)
  exact .bind (tells_persist quiet trivial fun _ _ ends => ends)

theorem tells_finishOperationFailed {E : ImageError → ImageHost → Prop} (stopped : Stopped id s) :
    Tells (finishOperationFailed id) (fun _ => Quiet) E s := by
  refine .bind (.attempt (tells_modify (stopped.ongoing.visit stopped.uncommitted trivial)
    (fun fine => (fine trivial).elim) fun _ fine => ?_))
  have quiet : Quiet (s.record id (some .failed)) := by
    refine stopped.ongoing.finish (by decide) (fun never => (nomatch never))
      (fun done => absurd (stopped.uncommitted.symm.trans done) Bool.false_ne_true) fun journal there own => ⟨rfl, ?_⟩
    exact fun named => fine ⟨journal, there, own ▸ stopped.ongoing.running, named⟩
  exact .bind (tells_persist quiet trivial fun _ _ ends => ends)

/-- The operation is being started: nothing but its own record may be there. -/
structure Starting (id : Nat) (host : ImageHost) : Prop where
  tracked : Tracked host
  only : ∀ other, host.operation other = some .running → other = id
  begun : host.begun id = false
  uncommitted : host.committed id = false
  foreign : ∀ journal, host.journal = some journal → journal.operationId ≠ id

theorem Starting.record (starting : Starting id s) {status : Option OperationStatus} :
    Starting id (s.record id status) := by
  have tracked := starting.tracked
  refine ⟨⟨fun journal there => ?_, fun journal there => ?_, fun other done begun => ?_, fun other done => ?_,
    fun other absent => ?_⟩, fun other runs => ?_, starting.begun, starting.uncommitted, starting.foreign⟩
  · have readable := tracked.readable journal there
    exact ⟨readable.previous, readable.next, readable.image, readable.env⟩
  · rw [record_other (starting.foreign journal there)]
    exact tracked.pending journal there
  · by_cases own : other = id
    · exact absurd (starting.begun.symm.trans (own ▸ begun)) Bool.false_ne_true
    · rw [record_other own] at done
      exact tracked.succeeded other done begun
  · by_cases own : other = id
    · exact absurd (starting.uncommitted.symm.trans (own ▸ done)) Bool.false_ne_true
    · rw [record_other own]
      exact tracked.committed other done
  · by_cases own : other = id
    · exact own ▸ starting.begun
    · rw [record_other own] at absent
      exact tracked.known other absent
  · by_contra own
    rw [record_other own] at runs
    exact own (starting.only other runs)

theorem Starting.matching (starting : Starting id s) (same : Matching s t) : Starting id t :=
  ⟨starting.tracked.matching same, same.operation ▸ starting.only, same.begun ▸ starting.begun,
    same.committed ▸ starting.uncommitted, same.journal ▸ starting.foreign⟩

theorem Starting.quiet (starting : Starting id s) (gone : s.operation id ≠ some .running) : Quiet s :=
  ⟨starting.tracked, fun other runs => gone (starting.only other runs ▸ runs)⟩

theorem tells_undoOperation {earlier : Option Nat} {error : ImageError} {Q : Unit → ImageHost → Prop}
    (starting : Starting id s) :
    Tells (do
      undoOperation id earlier
      throw error : ImageProcess Unit) Q (fun _ => Quiet) s := by
  have visit : ∀ (site : ImageSite) (t : ImageHost), Starting id t → OutcomeStep site t →
      (¬ losesOutcome site t → ¬ ∃ other, t.operation other = some .running) → OutcomeVisit site t :=
    fun site t mine plain kept => ⟨mine.tracked, fun safe =>
      (mine.quiet fun runs => kept safe ⟨id, runs⟩).recorded, plain⟩
  have renamed : Starting id { s with memory := { s.memory with lastOperationId := earlier } } :=
    starting.matching ⟨rfl, rfl, rfl, rfl, rfl⟩
  have gone : Quiet (ImageHost.record id none { s with memory := { s.memory with lastOperationId := earlier } }) :=
    renamed.record.quiet (by rw [record_same]; decide)
  refine .bind (.bind (.mark (visit _ s starting trivial fun safe runs => safe (.inr runs)) (.bind (.attempt
    (tells_modify (visit _ _ renamed trivial fun safe runs => safe (.inr runs)) (fun fine => ?_) fun _ _ => ?_)))))
  · exact .bind (tells_persist (renamed.quiet fun runs => fine ⟨id, runs⟩) trivial fun _ _ ends => ends)
  · exact .bind (tells_persist gone trivial fun _ _ ends => ends)

theorem tells_startOperation {task : ImageTask} (quiet : Quiet s) :
    Tells (startOperation inventories task) (fun _ => Quiet) (fun _ => Quiet) s := by
  refine .bind (.act (quiet.visit trivial) (fun _ => quiet) (fun _ _ never => (nomatch never))
    (fun answer id t same fine => ?_) (fun _ _ _ _ fine => (fine misrecords_lost).elim))
  cases same
  have fresh : s.operation answer.operationId = none := not_not.mp fine
  have starting : Starting answer.operationId
      { s with memory := { s.memory with lastOperationId := some answer.operationId } } := by
    refine ⟨quiet.tracked.matching ⟨rfl, rfl, rfl, rfl, rfl⟩, fun other runs => absurd runs (quiet.ended other),
      quiet.tracked.known _ fresh, Bool.eq_false_iff.mpr fun done => ?_, fun journal there own => ?_⟩
    · rcases quiet.tracked.committed _ done with ended | ended <;> cases fresh.symm.trans ended
    · rcases quiet.tracked.pending journal there with runs | ⟨ended, -⟩
      · exact quiet.ended _ runs
      · cases fresh.symm.trans (own ▸ ended)
  refine .bind (.view (quiet.visit trivial) (.bind (.mark (quiet.visit trivial) (.bind (.handle (.bind ?_))))))
  refine tells_modify ⟨starting.tracked, fun _ => (starting.quiet (quiet.ended _)).recorded, trivial⟩
    (fun _ => tells_undoOperation starting) fun _ _ => ?_
  have recorded : Starting answer.operationId (ImageHost.record answer.operationId (some .running)
      { s with memory := { s.memory with lastOperationId := some answer.operationId } }) := starting.record
  refine tells_modify ⟨recorded.tracked, fun safe => (safe (.inr trivial)).elim, trivial⟩
    (fun _ => tells_undoOperation recorded) fun _ _ => ?_
  have working : Working answer.operationId (ImageHost.persist (ImageHost.record answer.operationId (some .running)
      { s with memory := { s.memory with lastOperationId := some answer.operationId } })) := by
    have saved := recorded.matching (t := ImageHost.persist (ImageHost.record answer.operationId (some .running)
      { s with memory := { s.memory with lastOperationId := some answer.operationId } })) ⟨rfl, rfl, rfl, rfl, rfl⟩
    exact ⟨⟨saved.tracked, record_same, saved.only, rfl, rfl⟩, saved.begun, saved.uncommitted, saved.foreign⟩
  refine .bind (.outcome ((tells_run working).mono (fun _ _ performed => ?_) fun _ _ stopped => ?_))
  · exact tells_finishOperationSucceeded performed
  · exact tells_finishOperationFailed stopped

theorem tells_serveImageRequest {request : ImageRequest} {E : ImageError → ImageHost → Prop} (quiet : Quiet s) :
    Tells (serveImageRequest inventories request) (fun _ => Quiet) E s := by
  refine .bind (.mark (quiet.visit quiet.ended) (.bind ?_))
  cases request with
  | operation task => exact .attempt ((tells_startOperation quiet).mono (fun _ _ ends => ends) fun _ _ ends => ends)
  | country => exact tells_persist quiet trivial fun _ _ ends => ends

end Requests

section Starts

variable {inventories : List Char → ImageInventory} {journal : ActivationJournal} {s t : ImageHost}

theorem Recorded.visit {site : ImageSite} (recorded : Recorded s) (plain : OutcomeStep site s) :
    OutcomeVisit site s := ⟨recorded.tracked, fun _ => recorded, plain⟩

/-- While the journal is there, a start needs nothing of the state. -/
theorem Recorded.matching (recorded : Recorded s) (same : Matching s t)
    (there : t.journal ≠ none ∨ t.state.lastOperationId = s.state.lastOperationId) : Recorded t := by
  refine ⟨recorded.tracked.matching same, fun id runs => ?_, fun id runs absent => ?_, fun id journal runs found => ?_⟩
  · rw [same.committed]
    exact recorded.uncommitted id (same.operation ▸ runs)
  · rw [there.resolve_left (not_not.mpr absent)]
    exact recorded.named id (same.operation ▸ runs) (same.journal ▸ absent)
  · exact recorded.owned id journal (same.operation ▸ runs) (same.journal ▸ found)

/-- What a start knows once no journal is left. -/
structure Reopened (outcome : Option ActivationOutcome) (host : ImageHost) : Prop where
  tracked : Tracked host
  settled : host.journal = none
  named : ∀ id, host.operation id = some .running → host.state.lastOperationId = some id
  held : ∀ id, host.operation id = some .running → host.memory.lastOperationId = some id
  told : ∀ id, host.operation id = some .running →
    host.committed id = outcome.any fun found => found.operationId = id && found.committed

theorem Reopened.recorded {outcome : Option ActivationOutcome} (recovered : Reopened outcome s)
    (uncommitted : recoveredCommit outcome = false) : Recorded s := by
  refine ⟨recovered.tracked, fun id runs => ?_, fun id runs _ => recovered.named id runs, fun id journal _ there =>
    absurd (recovered.settled.symm.trans there) (by simp)⟩
  rw [recovered.told id runs]
  cases outcome with
  | none => rfl
  | some found =>
    have lost : found.committed = false := uncommitted
    simp [lost]

theorem Reopened.visit {outcome : Option ActivationOutcome} {site : ImageSite} (recovered : Reopened outcome s)
    (exposed : recoveredCommit outcome = true → losesOutcome site s) (plain : OutcomeStep site s) :
    OutcomeVisit site s :=
  ⟨recovered.tracked, fun safe => recovered.recorded (Bool.eq_false_iff.mpr fun done => safe (exposed done)), plain⟩

theorem Reopened.ongoing {outcome : Option ActivationOutcome} {id : Nat} (recovered : Reopened outcome s)
    (held : s.memory.lastOperationId = some id) (runs : s.operation id = some .running) : Ongoing id s :=
  ⟨recovered.tracked, runs, fun other also => Option.some.inj ((recovered.held other also).symm.trans held),
    recovered.named id runs, held⟩

theorem tells_commitRecovered (recorded : Recorded s) (there : s.journal = some journal)
    (env : rendererImageFromEnv s.env = journal.newImageId.value) :
    Tells (commitRecovered inventories journal) (fun outcome => Reopened (some outcome)) (fun _ => Recorded) s := by
  have readable := recorded.tracked.readable journal there
  have runs : s.operation journal.operationId = some .running :=
    (recorded.tracked.pending journal there).resolve_right fun other => other.2 env
  have keeps : ∀ t, Listing s t → Recorded t := fun t listing =>
    recorded.matching listing.matching (.inr (by rw [listing.state]))
  refine .bind (.ask (recorded.visit trivial) (fun _ => recorded) fun _ _ _ => .bind (tells_renewInventory
    (fun _ t listing plain => (keeps t listing).visit plain) (fun _ => keeps) fun t listing => ?_))
  have same := listing.matching
  have written : t.journal = some journal := same.journal.trans there
  refine .bind (tells_modify ((keeps t listing).visit trivial) (fun _ => keeps t listing) fun _ _ => ?_)
  have saved : Recorded { t with memory := journal.nextState, state := journal.nextState } :=
    (keeps t listing).matching ⟨rfl, rfl, rfl, rfl, rfl⟩ (.inl (by simp [written]))
  have ongoing : Activating journal { t with memory := journal.nextState, state := journal.nextState } := by
    have running : t.operation journal.operationId = some .running := same.operation ▸ runs
    exact ⟨⟨saved.tracked, running, fun other also => (saved.owned other journal also written).symm, readable.next,
      readable.next⟩, written, saved.uncommitted _ running⟩
  refine .bind (tells_modify (saved.visit fun other found => ?_) (fun _ => saved) fun _ _ => ?_)
  · cases written.symm.trans found
    refine ⟨ongoing.ongoing.running, ?_, ongoing.image⟩
    show rendererImageFromEnv t.env = journal.newImageId.value
    rw [same.env, env]
  · have performed := ongoing.commit
    refine ⟨performed.ongoing.tracked, rfl, fun id also => ?_, fun id also => ?_, fun id also => ?_⟩
    · exact performed.ongoing.only id also ▸ readable.next
    · exact performed.ongoing.only id also ▸ readable.next
    · obtain rfl := performed.ongoing.only id also
      simp [ImageHost.commit, written]

theorem tells_restoreRecovered (recorded : Recorded s) (there : s.journal = some journal)
    (env : rendererImageFromEnv s.env = rendererImageFromEnv journal.oldEnv) :
    Tells (restoreRecovered inventories journal) (fun outcome => Reopened (some outcome)) (fun _ => Recorded) s := by
  have readable := recorded.tracked.readable journal there
  refine .bind (tells_modify (recorded.visit trivial) (fun _ => recorded) fun _ _ => .bind ?_)
  have saved : Recorded { s with memory := journal.previousState, state := journal.previousState } :=
    recorded.matching ⟨rfl, rfl, rfl, rfl, rfl⟩ (.inl (by simp [there]))
  have keeps : ∀ t, Listing { s with memory := journal.previousState, state := journal.previousState } t →
      Recorded t := fun t listing => saved.matching listing.matching (.inr (by rw [listing.state]))
  have removes : ∀ t, Listing { s with memory := journal.previousState, state := journal.previousState } t →
      Tells (do
        Process.modify (.removeRecovered false) fun host => { host with journal := none }
        pure ⟨journal.operationId, false⟩ : ImageProcess ActivationOutcome)
        (fun outcome => Reopened (some outcome)) (fun _ => Recorded) t := by
    intro t listing
    have mine := keeps t listing
    have written : t.journal = some journal := listing.matching.journal.trans there
    have state : t.state = journal.previousState := listing.state
    have memory : t.memory = journal.previousState := listing.memory
    refine .bind (tells_modify (mine.visit fun other found => ?_) (fun _ => mine) fun _ _ => ?_)
    · cases written.symm.trans found
      rw [listing.matching.env]
      exact env
    · refine ⟨⟨fun _ never => (nomatch never), fun _ never => (nomatch never), mine.tracked.succeeded,
        mine.tracked.committed, mine.tracked.known⟩, rfl, fun id runs => ?_, fun id runs => ?_, fun id runs => ?_⟩
      · show t.state.lastOperationId = some id
        rw [state, readable.previous, mine.owned id journal runs written]
      · show t.memory.lastOperationId = some id
        rw [memory, readable.previous, mine.owned id journal runs written]
      · simpa using mine.uncommitted id runs
  split
  · exact removes _ ⟨s.packages, s.fonts, rfl⟩
  · exact .bind (.ask (saved.visit trivial) (fun _ => saved) fun _ _ _ => tells_renewInventory
      (fun _ t listing plain => (keeps t listing).visit plain) (fun _ => keeps) removes)

theorem tells_recoverPendingActivation (recorded : Recorded s)
    (loaded : s.memory.lastOperationId = s.state.lastOperationId) :
    Tells (recoverPendingActivation inventories) Reopened (fun _ => Recorded) s := by
  refine .bind (.ask (recorded.visit trivial) (fun _ => recorded) fun _ found same => ?_)
  cases same
  cases there : s.journal with
  | none =>
    have named := fun id runs => recorded.named id runs there
    exact ⟨recorded.tracked, there, named, fun id runs => loaded.trans (named id runs), recorded.uncommitted⟩
  | some journal =>
    refine .bind (.ask (recorded.visit trivial) (fun _ => recorded) fun _ configured same => ?_)
    cases same
    split
    · next new =>
      exact .bind ((tells_commitRecovered recorded there new).mono (fun _ _ held => held) fun _ _ held => held)
    · split
      · next old =>
        exact .bind ((tells_restoreRecovered recorded there old).mono (fun _ _ held => held) fun _ _ held => held)
      · exact recorded

theorem tells_recoverInterruptedOperation {outcome : Option ActivationOutcome} (recovered : Reopened outcome s) :
    Tells (recoverInterruptedOperation outcome) (fun _ => Quiet) (fun _ => Recorded) s := by
  have fails : (recoveredCommit outcome = true → False) → Recorded s := fun uncommitted =>
    recovered.recorded (Bool.eq_false_iff.mpr uncommitted)
  refine .bind (.view (recovered.visit .inr trivial) ?_)
  cases last : s.memory.lastOperationId with
  | none => exact ⟨recovered.tracked, fun id runs => by cases last.symm.trans (recovered.held id runs)⟩
  | some id =>
    refine .bind (.act (recovered.visit .inr trivial) fails (fun _ _ never => (nomatch never))
      (fun _ saved t same _ => ?_) (fun _ _ _ _ fine => (fine misrecords_lost).elim))
    cases same
    split
    · next runs =>
      have ongoing := recovered.ongoing last runs
      have told := recovered.told id runs
      refine .bind (tells_modify (recovered.visit .inr trivial) fails fun _ _ => ?_)
      have quiet : Quiet (s.record id (some
          (if outcome.any fun found => found.operationId = id && found.committed then .succeeded else .failed))) := by
        rw [← told]
        refine ongoing.finish (by split <;> decide) (fun done _ => ?_) (fun done => if_pos done) fun _ there =>
          absurd (recovered.settled.symm.trans there) (by simp)
        by_contra uncommitted
        rw [if_neg uncommitted] at done
        cases done
      exact tells_modify (quiet.visit trivial) (fun _ => quiet.recorded) fun _ _ =>
        quiet.matching ⟨rfl, rfl, rfl, rfl, rfl⟩
    · next ended =>
      refine ⟨recovered.tracked, fun other runs => ended ?_⟩
      obtain rfl := Option.some.inj ((recovered.held other runs).symm.trans last)
      exact runs

theorem tells_startImageManager (recorded : Recorded s) :
    Tells (startImageManager inventories) (fun _ => Quiet) (fun _ => Recorded) s := by
  have loaded : Recorded { s with memory := s.state, incomplete := false } :=
    recorded.matching ⟨rfl, rfl, rfl, rfl, rfl⟩ (.inr rfl)
  refine .bind (tells_modify (recorded.visit trivial) (fun _ => recorded) fun _ _ => ?_)
  exact .bind ((tells_recoverPendingActivation loaded rfl).mono
    (fun _ _ recovered => tells_recoverInterruptedOperation recovered) fun _ _ held => held)

theorem tells_imageManager {requests : List ImageRequest} (recorded : Recorded s) :
    Tells (imageManager inventories requests) (fun _ => Quiet) (fun _ => Recorded) s := by
  refine .bind ((tells_startImageManager recorded).mono (fun _ t quiet => ?_) fun _ _ held => held)
  refine .bind ((Process.careful.each (P := Quiet) (fun request u held => tells_serveImageRequest held) quiet).mono
    (fun _ u held => ?_) fun _ _ held => held)
  exact .mark (held.visit held.ended) held

/-- What the lives of the manager promise about the outcomes. -/
def outcomePromise : Service.CriticalPromise ImageSite (List ImageRequest) ImageHost ImageError Unit
    fun site host => ¬ losesOutcome site host where
  Inv := Recorded
  At := OutcomeVisit
  Returns _ _ _ := Quiet
  Raises _ _ _ := Recorded
  at_inv safe visit := visit.recorded safe
  returns_inv quiet := quiet.recorded
  raises_inv recorded := recorded

theorem OutcomeStep.commits {site : ImageSite} (plain : OutcomeStep site s) (commits : site.Commits)
    (there : s.journal = some journal) :
    s.operation journal.operationId = some .running ∧ rendererImageFromEnv s.env = journal.newImageId.value ∧
      s.state.current.runtimeImageId = journal.newImageId := by
  cases site with
  | removeCommitted => exact plain journal there
  | removeRecovered committed =>
    cases committed with
    | true => exact plain journal there
    | false => exact commits.elim
  | _ => exact commits.elim

theorem OutcomeStep.removes {site : ImageSite} (plain : OutcomeStep site s) (changes : site.ChangesJournal)
    (uncommitted : ¬ site.Commits) (there : s.journal = some journal) :
    rendererImageFromEnv s.env = rendererImageFromEnv journal.oldEnv := by
  cases site with
  | writeJournal => exact plain journal there
  | removeRestored => exact plain journal there
  | removeCommitted => exact absurd trivial uncommitted
  | removeRecovered committed =>
    cases committed with
    | true => exact absurd trivial uncommitted
    | false => exact plain journal there
  | _ => exact changes.elim

theorem tracked_of_kept {permits : ImageSite → ImageHost → Reply ImageAnswer → Prop}
    {host : Host (List ImageRequest) ImageSite ImageHost ImageAnswer ImageError Unit}
    (kept : outcomePromise.Kept permits host) : Tracked host.shared := by
  unfold Service.CriticalPromise.Kept at kept
  cases running : host.running with
  | none =>
    rw [running] at kept
    exact kept.tracked
  | some session =>
    rw [running] at kept
    have ends : Process.careful _ _ _ _ session.rest host.shared := kept
    revert ends
    cases session.rest with
    | ret value => exact Quiet.tracked
    | raise error => exact Recorded.tracked
    | perform site effect next => exact fun visit => visit.1.tracked

end Starts

/-- The manager has started and awaits a request, or its life is over. -/
def AwaitsRequest : ImageProcess Unit → Prop
  | .perform .request _ _ => True
  | .ret _ => True
  | _ => False

/-- The machine of the manager without what makes a record untrue. -/
abbrev outcomeMachine (inventories : List Char → ImageInventory) :
    LabeledMachine (Host (List ImageRequest) ImageSite ImageHost ImageAnswer ImageError Unit)
      (HostEvent (List ImageRequest) ImageSite ImageAnswer ImageError Unit Empty) :=
  (imageService inventories).carefulMachine (fun site host reply => ¬ misrecords site host reply)
    fun site host => ¬ losesOutcome site host

/-- In a run of the manager, with errors and crashes at any steps, in which no crash falls where it makes a record
untrue and no answer does: whenever the manager has started or has served a request, every operation has ended
and its record says whether its activation was committed; a commit is of an operation that runs, and
`renderer.env` and the state name its image; a journal that goes without a commit leaves `renderer.env` with the
old image; and a journal whose operation has failed never leads to its image. -/
theorem image_outcome {inventories : List Char → ImageInventory}
    {origin host : Host (List ImageRequest) ImageSite ImageHost ImageAnswer ImageError Unit}
    {events : List (HostEvent (List ImageRequest) ImageSite ImageAnswer ImageError Unit Empty)}
    (init : (imageService inventories).machine.Init origin) (run : Run (outcomeMachine inventories) origin events host) :
    (∀ session, host.running = some session → AwaitsRequest session.rest → host.shared.Decided) ∧
      (∀ event target id, (outcomeMachine inventories).Step host event target →
        target.shared.committed id = true → host.shared.committed id = false →
        ∃ journal, host.shared.journal = some journal ∧ journal.operationId = id ∧
          host.shared.operation id = some .running ∧
          rendererImageFromEnv host.shared.env = journal.newImageId.value ∧
          host.shared.state.current.runtimeImageId = journal.newImageId) ∧
      (∀ event target journal, (outcomeMachine inventories).Step host event target →
        host.shared.journal = some journal → target.shared.journal ≠ some journal →
        target.shared.committed journal.operationId = true ∨
          rendererImageFromEnv host.shared.env = rendererImageFromEnv journal.oldEnv) ∧
      ∀ journal, host.shared.journal = some journal → host.shared.operation journal.operationId = some .failed →
        rendererImageFromEnv host.shared.env ≠ journal.newImageId.value := by
  have calls : ∀ call t, Recorded t → Tells ((imageService inventories).program call)
      (fun _ => Quiet) (fun _ => Recorded) t := fun _ _ recorded => tells_imageManager recorded
  have starts : Recorded origin.shared := by
    obtain ⟨⟨absent, -, ended, fresh⟩, -⟩ := init
    refine Quiet.recorded ⟨⟨fun _ there => ?_, fun _ there => ?_, fun id _ begun => ?_, fun id done => ?_,
      fun id _ => (fresh id).1⟩, ended⟩
    · cases absent.symm.trans there
    · cases absent.symm.trans there
    · cases (fresh id).1.symm.trans begun
    · cases (fresh id).2.symm.trans done
  have kept : outcomePromise.Kept (fun site host reply => ¬ misrecords site host reply) host :=
    Service.careful_run calls (fun change => change.elim) init.2 starts run
  have frame : ∀ {site reply target}, (imageService inventories).machine.Step host (.advance site reply) target →
      JournalFrame site host.shared target.shared := fun taken =>
    Service.steps_advance (fun _ => journal_imageManager) init run.of_restrict taken
  refine ⟨fun session running awaits => ?_, ?_, ?_, fun journal there failed => ?_⟩
  · unfold Service.CriticalPromise.Kept at kept
    rw [running] at kept
    have ends : Process.careful _ _ _ _ session.rest host.shared := kept
    revert ends awaits
    cases session.rest with
    | ret value => exact fun _ quiet => Quiet.decided quiet
    | raise error => exact fun never => never.elim
    | perform site effect next =>
      cases site with
      | request => exact fun _ visit => Quiet.decided ⟨visit.1.tracked, visit.1.plain⟩
      | _ => exact fun never => never.elim
  · rintro event target id ⟨taken, -⟩ done uncommitted
    have changed : target.shared.committed id ≠ host.shared.committed id := by simp [done, uncommitted]
    cases event with
    | advance site reply =>
      rcases (frame taken).committed id done with before | ⟨commits, journal, there, own⟩
      · exact absurd (uncommitted.symm.trans before) Bool.false_ne_true
      · have named := (kept.at taken).plain.commits commits there
        exact ⟨journal, there, own, own ▸ named⟩
    | drift change => exact change.elim
    | _ => cases taken <;> exact absurd rfl changed
  · rintro event target journal ⟨taken, -⟩ there gone
    cases event with
    | advance site reply =>
      have changes := (frame taken).journal.resolve_left fun same => gone (same.trans there)
      by_cases commits : site.Commits
      · have moved := ((frame taken).commits commits).resolve_left fun same => gone (same.trans there)
        refine .inl ?_
        rw [moved]
        simp [ImageHost.commit, there]
      · exact .inr ((kept.at taken).plain.removes changes commits there)
    | drift change => exact change.elim
    | _ => cases taken <;> exact absurd there gone
  · have tracked : Tracked host.shared := tracked_of_kept kept
    rcases tracked.pending journal there with runs | ⟨-, other⟩
    · cases failed.symm.trans runs
    · exact other

section Examples

theorem restartedHost_operation (id : Nat) :
    restartedHost.operation id = if id = 1 then some .running else none := rfl

theorem run_restartedHost_outcome : Run (outcomeMachine listedInventory) ⟨activeHost, none⟩
    (.begin [.operation .apply] :: (Service.trace (managerExample [.operation .apply]) activeHost
      (imageReplies 16 1 imageB) ++ [.crash])) ⟨restartedHost, none⟩ := by
  refine Service.careful_killed (imageService listedInventory) [.operation .apply] ?_ ?_
  · exact ⟨id, id, id, id, fun used => used rfl, id, id, id, id, id, id, id, id, id, id, id, trivial⟩
  · rintro (⟨journal, other, there, runs, stray⟩ | never)
    · cases there
      have runs : restartedHost.operation other = some .running := runs
      rw [restartedHost_operation] at runs
      split at runs
      · next same => exact stray same.symm
      · cases runs
    · exact never

/-- What a crash in the first activation leaves. -/
theorem image_outcome_restarted :
    (∀ session, (none : Option (Session (List ImageRequest) ImageSite ImageHost ImageAnswer ImageError Unit)) =
        some session → AwaitsRequest session.rest → restartedHost.Decided) ∧
      (∀ event target id, (outcomeMachine listedInventory).Step ⟨restartedHost, none⟩ event target →
        target.shared.committed id = true → restartedHost.committed id = false →
        ∃ journal, restartedHost.journal = some journal ∧ journal.operationId = id ∧
          restartedHost.operation id = some .running ∧
          rendererImageFromEnv restartedHost.env = journal.newImageId.value ∧
          restartedHost.state.current.runtimeImageId = journal.newImageId) ∧
      (∀ event target journal, (outcomeMachine listedInventory).Step ⟨restartedHost, none⟩ event target →
        restartedHost.journal = some journal → target.shared.journal ≠ some journal →
        target.shared.committed journal.operationId = true ∨
          rendererImageFromEnv restartedHost.env = rendererImageFromEnv journal.oldEnv) ∧
      ∀ journal, restartedHost.journal = some journal → restartedHost.operation journal.operationId = some .failed →
        rendererImageFromEnv restartedHost.env ≠ journal.newImageId.value :=
  image_outcome init_activeHost run_restartedHost_outcome

/-- The manager is killed after the activation was committed and before the operation is recorded. -/
def committedHost : ImageHost :=
  (Service.exec (managerExample [.operation .apply]) activeHost (imageReplies 21 1 imageB)).2

/-- The next life of the manager. -/
def laterLife : ImageProcess Unit × ImageHost :=
  Service.exec (managerExample []) committedHost (imageReplies 6 2 imageB)

theorem laterLife_awaits : AwaitsRequest laterLife.1 := trivial

theorem laterLife_image : rendererImageFromEnv laterLife.2.env = imageB.value := by decide

theorem laterLife_recorded : laterLife.2.state.current.runtimeImageId = imageB := rfl

theorem laterLife_failed : laterLife.2.operation 1 = some .failed := rfl

/-- The manager has started again: `renderer.env` and the state name the image of the operation, its activation
was committed, and it is recorded as failed. -/
theorem image_outcome_untrue : ∃ (origin host : Host (List ImageRequest) ImageSite ImageHost ImageAnswer ImageError
      Unit) (events : List (HostEvent (List ImageRequest) ImageSite ImageAnswer ImageError Unit Empty)),
    (imageService listedInventory).machine.Init origin ∧ Run (imageService listedInventory).machine origin events host ∧
      (∃ session, host.running = some session ∧ AwaitsRequest session.rest) ∧
      rendererImageFromEnv host.shared.env = imageB.value ∧
      host.shared.state.current.runtimeImageId = imageB ∧ host.shared.committed 1 = true ∧
      host.shared.operation 1 = some .failed ∧ ¬ host.shared.Decided := by
  refine ⟨⟨activeHost, none⟩, ⟨laterLife.2, some ⟨[], committedHost, laterLife.1⟩⟩, _, init_activeHost,
    (Service.run_killed (imageService listedInventory) activeHost [.operation .apply] (imageReplies 21 1 imageB)).append
      (.cons (.begin _ []) (Service.run_exec (imageService listedInventory) (managerExample []) committedHost []
        committedHost (imageReplies 6 2 imageB))),
    ⟨_, rfl, laterLife_awaits⟩, laterLife_image, laterLife_recorded, rfl, laterLife_failed, fun decided => ?_⟩
  have outcome : laterLife.2.operation 1 = some .succeeded := decided.outcome 1 rfl
  cases laterLife_failed.symm.trans outcome

end Examples

end LatexRenderer
