import LatexRenderer.Deploy.ImageRuns

/-! # Outcomes of image operations

An operation is recorded as running before its activation begins and as ended after its journal went, so the
journal alone tells a later start how an interrupted activation ended. The records are true as long as no
crash falls between the end of the journal and the record, no record of an end is lost, and no operation is
called failed whose journal still leads to its image.
-/

namespace LatexRenderer

open Machine

section Records

variable {journal : ActivationJournal} {s t : ImageHost} {id : Nat}

/-- A later start can go on from the journal. -/
structure ActivationJournal.Readable (journal : ActivationJournal) (host : ImageHost) : Prop where
  previous : journal.previousState.lastOperationId = some journal.operationId
  next : journal.nextState.lastOperationId = some journal.operationId
  image : journal.nextState.current.runtimeImageId = journal.newImageId
  env : host.env = journal.oldEnv ∨ host.env = rendererEnvWithImage journal.oldEnv journal.newImageId

/-- The records of the operations that ended are true, and a journal belongs to an operation that runs or that
failed and left `renderer.env` without its image. -/
structure Tracked (host : ImageHost) : Prop where
  readable : ∀ journal, host.journal = some journal → journal.Readable host
  pending : ∀ journal, host.journal = some journal → host.operation journal.operationId = some .running ∨
    host.operation journal.operationId = some .failed ∧
      rendererImageFromEnv host.env ≠ journal.newImageId.value
  succeeded : ∀ id, host.operation id = some .succeeded → host.begun id = true → host.committed id = true
  committed : ∀ id, host.committed id = true → host.operation id = some .succeeded ∨
    host.operation id = some .running
  known : ∀ id, host.operation id = none → host.begun id = false

/-- No operation runs. -/
structure Quiet (host : ImageHost) : Prop where
  tracked : Tracked host
  ended : ∀ id, host.operation id ≠ some .running

/-- The next start of the manager finds the operation that runs, and how it ended. -/
structure Recorded (host : ImageHost) : Prop where
  tracked : Tracked host
  uncommitted : ∀ id, host.operation id = some .running → host.committed id = false
  named : ∀ id, host.operation id = some .running → host.journal = none → host.state.lastOperationId = some id
  owned : ∀ id journal, host.operation id = some .running → host.journal = some journal → journal.operationId = id

/-- Every operation has ended, and its record says whether its activation was committed. -/
structure ImageHost.Decided (host : ImageHost) : Prop where
  ended : ∀ id, host.operation id ≠ some .running
  outcome : ∀ id, host.begun id = true →
    host.operation id = some (if host.committed id then .succeeded else .failed)

theorem Quiet.decided (quiet : Quiet s) : s.Decided := by
  refine ⟨quiet.ended, fun id begun => ?_⟩
  cases recorded : s.operation id with
  | none => exact absurd ((quiet.tracked.known id recorded).symm.trans begun) Bool.false_ne_true
  | some status =>
    cases status with
    | running => exact absurd recorded (quiet.ended id)
    | succeeded => rw [if_pos (quiet.tracked.succeeded id recorded begun)]
    | failed =>
      have uncommitted : s.committed id ≠ true := fun done => by
        rcases quiet.tracked.committed id done with other | other <;> simp [recorded] at other
      rw [if_neg uncommitted]

theorem Quiet.recorded (quiet : Quiet s) : Recorded s :=
  ⟨quiet.tracked, fun id runs => absurd runs (quiet.ended id), fun id runs => absurd runs (quiet.ended id),
    fun id _ runs => absurd runs (quiet.ended id)⟩

/-- The journal is that of an earlier operation. -/
def strayOperation (host : ImageHost) : Prop :=
  ∃ journal id, host.journal = some journal ∧ host.operation id = some .running ∧ journal.operationId ≠ id

/-- Where a crash makes a record untrue. -/
def losesOutcome (site : ImageSite) (host : ImageHost) : Prop :=
  strayOperation host ∨
    match site with
    | .persistStart => True
    | .undo => ∃ id, host.operation id = some .running
    | .removeMeta => ∃ id, host.operation id = some .running
    | .saveSucceeded => ∃ id, host.operation id = some .running ∧ host.committed id = true
    | .findOperation committed => committed = true
    | .loadOperation committed => committed = true
    | .saveRecovered committed => committed = true
    | _ => False

/-- An answer that makes a record untrue. A step that takes effect does not fail, and an id is new. -/
def misrecords : ImageSite → ImageHost → Reply ImageAnswer → Prop
  | _, _, .lost _ => True
  | .lock, host, .done answer => host.operation answer.operationId ≠ none
  | .removeMeta, host, .refused => ∃ id, host.operation id = some .running
  | .saveSucceeded, _, .refused => True
  | .saveFailed, _, .refused => True
  | .loadOperation committed, _, .refused => committed = true
  | .saveRecovered committed, _, .refused => committed = true
  | .saveFailed, host, .done _ => ∃ journal, host.journal = some journal ∧
      host.operation journal.operationId = some .running ∧
      rendererImageFromEnv host.env = journal.newImageId.value
  | _, _, _ => False

/-- What has to hold where requests are awaited, and where a journal is written or removed. -/
def OutcomeStep : ImageSite → ImageHost → Prop
  | .request, host => ∀ id, host.operation id ≠ some .running
  | .removeCommitted, host => ∀ journal, host.journal = some journal →
      host.operation journal.operationId = some .running ∧
        rendererImageFromEnv host.env = journal.newImageId.value ∧
        host.state.current.runtimeImageId = journal.newImageId
  | .removeRecovered true, host => ∀ journal, host.journal = some journal →
      host.operation journal.operationId = some .running ∧
        rendererImageFromEnv host.env = journal.newImageId.value ∧
        host.state.current.runtimeImageId = journal.newImageId
  | .removeRecovered false, host => ∀ journal, host.journal = some journal →
      rendererImageFromEnv host.env = rendererImageFromEnv journal.oldEnv
  | .removeRestored, host => ∀ journal, host.journal = some journal →
      rendererImageFromEnv host.env = rendererImageFromEnv journal.oldEnv
  | .writeJournal, host => ∀ journal, host.journal = some journal →
      rendererImageFromEnv host.env = rendererImageFromEnv journal.oldEnv
  | _, _ => True

/-- What holds at every step. -/
structure OutcomeVisit (site : ImageSite) (host : ImageHost) : Prop where
  tracked : Tracked host
  recorded : ¬ losesOutcome site host → Recorded host
  plain : OutcomeStep site host

/-- The processes of the manager, with what they promise about the outcomes. -/
abbrev Tells {α : Type} (p : ImageProcess α) (Q : α → ImageHost → Prop) (E : ImageError → ImageHost → Prop)
    (s : ImageHost) : Prop :=
  p.careful (fun site host reply => ¬ misrecords site host reply) Q E OutcomeVisit s

theorem misrecords_lost {site : ImageSite} {answer : ImageAnswer} : misrecords site s (.lost answer) := by
  cases site <;> trivial

theorem tells_modify {Q : Unit → ImageHost → Prop} {E : ImageError → ImageHost → Prop} {site : ImageSite}
    {f : ImageHost → ImageHost} (visit : OutcomeVisit site s) (refused : ¬ misrecords site s .refused → E .host s)
    (done : ∀ answer, ¬ misrecords site s (.done answer) → Q () (f s)) :
    Tells (Process.modify site f) Q E s :=
  .modify visit (fun _ fine => fine misrecords_lost) refused done

/-- The two hosts differ in nothing that the records are about. -/
structure Matching (s t : ImageHost) : Prop where
  env : t.env = s.env
  journal : t.journal = s.journal
  operation : t.operation = s.operation
  begun : t.begun = s.begun
  committed : t.committed = s.committed

theorem Tracked.matching (tracked : Tracked s) (same : Matching s t) : Tracked t := by
  obtain ⟨env, written, operation, begun, committed⟩ := same
  refine ⟨fun journal there => ?_, ?_, ?_, ?_, ?_⟩
  · have readable := tracked.readable journal (written ▸ there)
    exact ⟨readable.previous, readable.next, readable.image, env ▸ readable.env⟩
  · rw [written, operation, env]
    exact tracked.pending
  · rw [operation, begun, committed]
    exact tracked.succeeded
  · rw [operation, committed]
    exact tracked.committed
  · rw [operation, begun]
    exact tracked.known

theorem Quiet.matching (quiet : Quiet s) (same : Matching s t) : Quiet t :=
  ⟨quiet.tracked.matching same, same.operation ▸ quiet.ended⟩

theorem Quiet.visit {site : ImageSite} (quiet : Quiet s) (plain : OutcomeStep site s) : OutcomeVisit site s :=
  ⟨quiet.tracked, fun _ => quiet.recorded, plain⟩

/-- A journal that is not that of the running operation leaves the old image in `renderer.env`. -/
theorem Tracked.old (tracked : Tracked s) (there : s.journal = some journal)
    (stopped : s.operation journal.operationId ≠ some .running) :
    rendererImageFromEnv s.env = rendererImageFromEnv journal.oldEnv := by
  have other := ((tracked.pending journal there).resolve_left stopped).2
  rcases (tracked.readable journal there).env with same | same
  · rw [same]
  · rw [same, rendererImageFromEnv_withImage] at other
    exact absurd rfl other

end Records

section Operations

variable {inventories : List Char → ImageInventory} {journal : ActivationJournal} {s t : ImageHost} {id : Nat}

/-- The operation runs, and no other does. -/
structure Ongoing (id : Nat) (host : ImageHost) : Prop where
  tracked : Tracked host
  running : host.operation id = some .running
  only : ∀ other, host.operation other = some .running → other = id
  named : host.state.lastOperationId = some id
  held : host.memory.lastOperationId = some id

theorem Ongoing.matching (ongoing : Ongoing id s) (same : Matching s t)
    (named : t.state.lastOperationId = some id) (held : t.memory.lastOperationId = some id) : Ongoing id t :=
  ⟨ongoing.tracked.matching same, same.operation ▸ ongoing.running, same.operation ▸ ongoing.only, named, held⟩

/-- A crash loses nothing before the operation has committed its activation. -/
theorem Ongoing.visit {site : ImageSite} (ongoing : Ongoing id s) (uncommitted : s.committed id = false)
    (plain : OutcomeStep site s) : OutcomeVisit site s := by
  refine ⟨ongoing.tracked, fun kept => ⟨ongoing.tracked, fun other runs => ?_, fun other runs _ => ?_,
    fun other journal runs there => ?_⟩, plain⟩
  · exact ongoing.only other runs ▸ uncommitted
  · exact ongoing.only other runs ▸ ongoing.named
  · by_contra stray
    exact kept (.inl ⟨journal, other, there, runs, stray⟩)

/-- The operation has not begun an activation. -/
structure Working (id : Nat) (host : ImageHost) : Prop where
  ongoing : Ongoing id host
  begun : host.begun id = false
  uncommitted : host.committed id = false
  foreign : ∀ journal, host.journal = some journal → journal.operationId ≠ id

/-- The operation has committed what it has begun. -/
structure Performed (id : Nat) (host : ImageHost) : Prop where
  ongoing : Ongoing id host
  committed : host.begun id = true → host.committed id = true
  foreign : ∀ journal, host.journal = some journal → journal.operationId ≠ id

/-- The operation has committed nothing. -/
structure Stopped (id : Nat) (host : ImageHost) : Prop where
  ongoing : Ongoing id host
  uncommitted : host.committed id = false

/-- The activation of the journal runs. -/
structure Activating (journal : ActivationJournal) (host : ImageHost) : Prop where
  ongoing : Ongoing journal.operationId host
  written : host.journal = some journal
  uncommitted : host.committed journal.operationId = false

theorem Working.visit {site : ImageSite} (working : Working id s) (plain : OutcomeStep site s) :
    OutcomeVisit site s := working.ongoing.visit working.uncommitted plain

theorem Working.stopped (working : Working id s) : Stopped id s := ⟨working.ongoing, working.uncommitted⟩

theorem Working.performed (working : Working id s) : Performed id s :=
  ⟨working.ongoing, fun begun => absurd (working.begun.symm.trans begun) Bool.false_ne_true, working.foreign⟩

theorem Working.matching (working : Working id s) (same : Matching s t)
    (named : t.state.lastOperationId = some id) (held : t.memory.lastOperationId = some id) : Working id t :=
  ⟨working.ongoing.matching same named held, same.begun ▸ working.begun, same.committed ▸ working.uncommitted,
    same.journal ▸ working.foreign⟩

theorem Activating.visit {site : ImageSite} (activating : Activating journal s) (plain : OutcomeStep site s) :
    OutcomeVisit site s := activating.ongoing.visit activating.uncommitted plain

theorem Activating.stopped (activating : Activating journal s) : Stopped journal.operationId s :=
  ⟨activating.ongoing, activating.uncommitted⟩

theorem Activating.matching (activating : Activating journal s) (same : Matching s t)
    (named : t.state.lastOperationId = some journal.operationId)
    (held : t.memory.lastOperationId = some journal.operationId) : Activating journal t :=
  ⟨activating.ongoing.matching same named held, same.journal.trans activating.written,
    same.committed ▸ activating.uncommitted⟩

/-- An activation and its restoration change `renderer.env`. -/
theorem Activating.setEnv (activating : Activating journal s) {env : RendererEnv}
    (either : env = journal.oldEnv ∨ env = rendererEnvWithImage journal.oldEnv journal.newImageId) :
    Activating journal { s with env := env } := by
  have tracked := activating.ongoing.tracked
  have readable := tracked.readable journal activating.written
  refine ⟨⟨⟨fun other there => ?_, fun other there => .inl ?_, tracked.succeeded, tracked.committed, tracked.known⟩,
    activating.ongoing.running, activating.ongoing.only, activating.ongoing.named, activating.ongoing.held⟩,
    activating.written, activating.uncommitted⟩
  · cases activating.written.symm.trans there
    exact ⟨readable.previous, readable.next, readable.image, either⟩
  · cases activating.written.symm.trans there
    exact activating.ongoing.running

/-- A host whose inventory files may differ. -/
def Listing (s t : ImageHost) : Prop := ∃ packages fonts, t = { s with packages := packages, fonts := fonts }

theorem Listing.matching (listing : Listing s t) : Matching s t := by
  obtain ⟨packages, fonts, rfl⟩ := listing
  exact ⟨rfl, rfl, rfl, rfl, rfl⟩

theorem Listing.state (listing : Listing s t) : t.state = s.state := by
  obtain ⟨packages, fonts, rfl⟩ := listing
  rfl

theorem Listing.memory (listing : Listing s t) : t.memory = s.memory := by
  obtain ⟨packages, fonts, rfl⟩ := listing
  rfl

theorem tells_writeInventory {writer : InventoryWriter} {packages fonts : Option String}
    {Q : Unit → ImageHost → Prop} {E : ImageError → ImageHost → Prop}
    (visits : ∀ site t, Listing s t → OutcomeStep site t → OutcomeVisit site t)
    (fails : ∀ t, Listing s t → E .host t) (goes : ∀ t, Listing s t → Q () t) :
    Tells (writeInventory writer packages fonts) Q E s := by
  have same : Listing s s := ⟨s.packages, s.fonts, rfl⟩
  have packed : Listing s { s with packages := packages } := ⟨packages, s.fonts, rfl⟩
  refine .bind (tells_modify (visits _ s same trivial) (fun _ => fails s same) fun _ _ => ?_)
  exact tells_modify (visits _ _ packed trivial) (fun _ => fails _ packed) fun _ _ => goes _ ⟨packages, fonts, rfl⟩

theorem tells_renewInventory {writer : InventoryWriter} {image : List Char}
    {Q : Unit → ImageHost → Prop} {E : ImageError → ImageHost → Prop}
    (visits : ∀ site t, Listing s t → OutcomeStep site t → OutcomeVisit site t)
    (fails : ∀ error t, Listing s t → E error t) (goes : ∀ t, Listing s t → Q () t) :
    Tells (renewInventory inventories writer image) Q E s :=
  .bind (.ask (visits _ s ⟨s.packages, s.fonts, rfl⟩ trivial) (fun error => fails error s ⟨s.packages, s.fonts, rfl⟩)
    fun _ _ _ => tells_writeInventory visits (fails .host) goes)

theorem Activating.listing (activating : Activating journal s) (listing : Listing s t) : Activating journal t :=
  activating.matching listing.matching (listing.state ▸ activating.ongoing.named)
    (listing.memory ▸ activating.ongoing.held)

theorem Working.listing (working : Working id s) (listing : Listing s t) : Working id t :=
  working.matching listing.matching (listing.state ▸ working.ongoing.named) (listing.memory ▸ working.ongoing.held)

end Operations

section Activations

variable {inventories : List Char → ImageInventory} {journal : ActivationJournal} {s t : ImageHost} {id : Nat}

theorem Activating.image (activating : Activating journal s) :
    journal.nextState.current.runtimeImageId = journal.newImageId :=
  (activating.ongoing.tracked.readable journal activating.written).image

theorem Activating.commit (activating : Activating journal s) : Performed journal.operationId s.commit := by
  have tracked := activating.ongoing.tracked
  have commits : ∀ other, s.commit.committed other = true → other = journal.operationId ∨ s.committed other = true := by
    intro other done
    have either : decide (journal.operationId = other) = true ∨ s.committed other = true := by
      simpa [ImageHost.commit, activating.written] using done
    exact either.imp_left fun same => (of_decide_eq_true same).symm
  have committed : s.commit.committed journal.operationId = true := by simp [ImageHost.commit, activating.written]
  refine ⟨⟨⟨fun _ never => (by cases never), fun _ never => (by cases never), fun other done begun => ?_,
    fun other done => ?_, tracked.known⟩, activating.ongoing.running, activating.ongoing.only,
    activating.ongoing.named, activating.ongoing.held⟩, fun _ => committed, fun _ never => (by cases never)⟩
  · have before := tracked.succeeded other done begun
    show (s.journal.any _ || s.committed other) = true
    simp [before]
  · rcases commits other done with rfl | before
    · exact .inr activating.ongoing.running
    · exact tracked.committed other before

/-- The `try` block of an activation, after `renderer.env` names the image. -/
theorem tells_afterEnv (activating : Activating journal s)
    (env : rendererImageFromEnv s.env = journal.newImageId.value) {packages fonts : Option String} :
    Tells (do
      writeInventory .activation packages fonts
      Process.modify .persistNext fun host => { host with memory := journal.nextState, state := journal.nextState }
      Process.modify .removeCommitted ImageHost.commit : ImageProcess Unit)
      (fun _ => Performed journal.operationId) (fun _ => Activating journal) s := by
  refine .bind (tells_writeInventory (fun _ _ listing plain => (activating.listing listing).visit plain)
    (fun _ listing => activating.listing listing) fun t listing => ?_)
  have listed := activating.listing listing
  refine .bind (tells_modify (listed.visit trivial) (fun _ => listed) fun _ _ => ?_)
  have named := (listed.ongoing.tracked.readable journal listed.written).next
  have recorded : Activating journal { t with memory := journal.nextState, state := journal.nextState } :=
    listed.matching ⟨rfl, rfl, rfl, rfl, rfl⟩ named named
  refine tells_modify (recorded.visit fun other there => ?_) (fun _ => recorded) fun _ _ => recorded.commit
  cases recorded.written.symm.trans there
  refine ⟨recorded.ongoing.running, ?_, recorded.image⟩
  show rendererImageFromEnv t.env = journal.newImageId.value
  rw [listing.matching.env, env]

theorem tells_performActivation {newEnv : RendererEnv} (activating : Activating journal s)
    (env : s.env = journal.oldEnv) (new : newEnv = rendererEnvWithImage journal.oldEnv journal.newImageId) :
    Tells (performActivation inventories journal newEnv) (fun _ => Performed journal.operationId)
      (fun _ => Activating journal) s := by
  have named : rendererImageFromEnv newEnv = journal.newImageId.value := new ▸ rendererImageFromEnv_withImage
  refine .bind ?_
  by_cases changed : newEnv = journal.oldEnv
  · rw [if_neg (not_not.mpr changed)]
    exact tells_afterEnv activating (by rw [env, ← changed, named])
  · rw [if_pos changed]
    refine .bind (tells_modify (activating.visit trivial) (fun _ => activating) fun _ _ => ?_)
    have moved : Activating journal { s with env := newEnv } := activating.setEnv (.inr new)
    exact .ask (moved.visit trivial) (fun _ => moved) fun _ _ _ => tells_afterEnv moved named

/-- The restoration, after which `renderer.env` is the old one when nothing failed. -/
theorem tells_restoreActivation {inventory : Option String × Option String} {changed : Bool}
    (activating : Activating journal s) :
    Tells (restoreActivation journal.oldEnv inventory changed)
      (fun restored t => Activating journal t ∧ (restored = true → t.env = journal.oldEnv))
      (fun _ _ => False) s := by
  have writes : ∀ t : ImageHost, Activating journal t → ∀ earlier : Bool, (earlier = true → t.env = journal.oldEnv) →
      Tells (do
        let inventoryRestored ← Process.attempt (writeInventory .restoration inventory.1 inventory.2)
        pure (earlier && inventoryRestored) : ImageProcess Bool)
        (fun restored u => Activating journal u ∧ (restored = true → u.env = journal.oldEnv))
        (fun _ _ => False) t := by
    intro t own earlier env
    have ends : ∀ u, Listing t u → ∀ written : Bool,
        Activating journal u ∧ ((earlier && written) = true → u.env = journal.oldEnv) := fun u listing written =>
      ⟨own.listing listing, fun both => listing.matching.env.trans (env (by simp_all))⟩
    exact .bind (.attempt (tells_writeInventory (fun _ _ listing plain => (own.listing listing).visit plain)
      (fun u listing => ends u listing false) fun u listing => ends u listing true))
  have restored : Activating journal { s with env := journal.oldEnv } := activating.setEnv (.inl rfl)
  refine .bind (.attempt (tells_modify (activating.visit trivial) (fun _ => .bind ?_) fun _ _ => .bind ?_))
  · rw [if_neg (by simp)]
    exact writes s activating (false && true) fun never => (nomatch never)
  · cases changed with
    | false => exact writes _ restored (true && true) fun _ => rfl
    | true =>
      exact .attempt (.ask (restored.visit trivial) (fun _ => writes _ restored (true && false) fun _ => rfl)
        fun _ _ _ => writes _ restored (true && true) fun _ => rfl)

theorem tells_abandonActivation {inventory : Option String × Option String} {changed : Bool} {error : ImageError}
    {Q : Unit → ImageHost → Prop} (activating : Activating journal s) :
    Tells (do
      abandonActivation journal inventory changed
      throw error : ImageProcess Unit) Q (fun _ => Stopped journal.operationId) s := by
  have named := (activating.ongoing.tracked.readable journal activating.written).previous
  have abandoned : Activating journal { s with memory := journal.previousState } :=
    activating.matching ⟨rfl, rfl, rfl, rfl, rfl⟩ activating.ongoing.named named
  refine .bind (.bind (.mark (activating.visit trivial) (.bind ((tells_restoreActivation abandoned).mono
    (fun restored t held => ?_) fun _ _ never => never.elim))))
  obtain ⟨own, env⟩ := held
  have ends : ∀ u, Activating journal u → u.env = t.env → Tells (do
      if restored then do
        let _ ← Process.attempt (Process.modify .removeRestored fun host => { host with journal := none })
        pure ()
      else Process.mark .look fun host => { host with incomplete := true } : ImageProcess Unit)
      (fun _ => Stopped journal.operationId) (fun _ => Stopped journal.operationId) u := by
    intro u mine same
    cases restored with
    | false =>
      have stuck : Activating journal { u with incomplete := true } :=
        mine.matching ⟨rfl, rfl, rfl, rfl, rfl⟩ mine.ongoing.named mine.ongoing.held
      exact .mark (mine.visit trivial) stuck.stopped
    | true =>
      have tracked := mine.ongoing.tracked
      have gone : Stopped journal.operationId { u with journal := none } :=
        ⟨⟨⟨fun _ never => (nomatch never), fun _ never => (nomatch never), tracked.succeeded, tracked.committed,
          tracked.known⟩, mine.ongoing.running, mine.ongoing.only, mine.ongoing.named, mine.ongoing.held⟩,
          mine.uncommitted⟩
      refine .bind (.attempt (tells_modify (mine.visit fun other there => ?_) (fun _ => mine.stopped) fun _ _ => gone))
      cases mine.written.symm.trans there
      rw [same, env rfl]
  refine .bind (.attempt (tells_modify (own.visit trivial) (fun _ => ends t own rfl) fun _ _ => ?_))
  exact ends _ (own.matching ⟨rfl, rfl, rfl, rfl, rfl⟩ named own.ongoing.held) rfl

theorem Working.activate {nextState : RuntimeState} {image : ImageId} (working : Working id s)
    (named : nextState.lastOperationId = some id) (names : nextState.current.runtimeImageId = image) :
    Activating ⟨id, s.env, image, s.memory, nextState⟩ { s with
      journal := some ⟨id, s.env, image, s.memory, nextState⟩
      begun := fun other => decide (other = id) || s.begun other } := by
  have tracked := working.ongoing.tracked
  refine ⟨⟨⟨?_, ?_, fun other done begun => ?_, tracked.committed, fun other absent => ?_⟩, working.ongoing.running,
    working.ongoing.only, working.ongoing.named, working.ongoing.held⟩, rfl, working.uncommitted⟩
  · rintro _ ⟨⟩
    exact ⟨working.ongoing.held, named, names, .inl rfl⟩
  · rintro _ ⟨⟩
    exact .inl working.ongoing.running
  · rcases (Bool.or_eq_true _ _).mp begun with same | before
    · obtain rfl := of_decide_eq_true same
      exact absurd (working.ongoing.running.symm.trans done) (by decide)
    · exact tracked.succeeded other done before
  · refine Bool.or_eq_false_iff.mpr ⟨decide_eq_false fun same => ?_, tracked.known other absent⟩
    subst same
    exact absurd (working.ongoing.running.symm.trans absent) (by decide)

theorem tells_activateAndPersistState {nextState : RuntimeState} {image : ImageId} (working : Working id s)
    (named : nextState.lastOperationId = some id) (names : nextState.current.runtimeImageId = image) :
    Tells (activateAndPersistState inventories id s.memory nextState image) (fun _ => Performed id)
      (fun _ => Stopped id) s := by
  refine .bind (.ask (working.visit trivial) (fun _ => working.stopped) fun _ _ _ => ?_)
  refine .bind (.ask (working.visit trivial) (fun _ => working.stopped) fun _ oldEnv same => ?_)
  cases same
  refine .bind (.ask (working.visit trivial) (fun _ => working.stopped) fun _ oldInventory same => ?_)
  cases same
  refine .bind (tells_modify (working.visit fun journal there => ?_) (fun _ => working.stopped) fun _ _ => ?_)
  · exact working.ongoing.tracked.old there fun runs => working.foreign journal there (working.ongoing.only _ runs)
  · exact .handle ((tells_performActivation (working.activate named names) rfl rfl).mono (fun _ _ held => held)
      fun _ _ own => tells_abandonActivation own)

end Activations

end LatexRenderer
