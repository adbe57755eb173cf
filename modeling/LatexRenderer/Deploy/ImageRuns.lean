import LatexRenderer.Deploy.ImageActivation

/-! # Runs of the image manager

Every request leaves a calm host and every start of the manager brings one about, so the promises of the
activations hold in all runs: without a journal the host is consistent, recovery refuses nothing, and a
journal goes only once its activation is committed or restored.
-/

namespace LatexRenderer

open Machine

section Requests

variable {inventories : List Char → ImageInventory} {s t : ImageHost} {id : Nat}

theorem activates_alike {site : ImageSite} {f : ImageHost → ImageHost} (calm : Calm inventories s)
    (plain : JournalStep inventories site s) (alike : Alike s (f s)) :
    Activates inventories (Process.modify site f) (fun _ => Calm inventories) (fun _ => Calm inventories) s :=
  activates_modify ⟨calm.recoverable, plain⟩ (fun _ => calm) fun _ _ => calm.alike alike

theorem activates_persist {site : ImageSite} (calm : Calm inventories s) (plain : JournalStep inventories site s) :
    Activates inventories (Process.modify site ImageHost.persist) (fun _ => Calm inventories)
      (fun _ => Calm inventories) s :=
  activates_modify ⟨calm.recoverable, plain⟩ (fun _ => calm) fun _ _ => calm.persist

theorem alike_record {status : Option OperationStatus} : Alike s (s.record id status) :=
  ⟨rfl, rfl, rfl, rfl, rfl, rfl, rfl⟩

theorem activates_attempt {p : ImageProcess Unit} {Q : Bool → ImageHost → Prop}
    {E : ImageError → ImageHost → Prop}
    (calm : Activates inventories p (fun _ => Calm inventories) (fun _ => Calm inventories) s)
    (goes : ∀ succeeded u, Calm inventories u → Q succeeded u) :
    Activates inventories (Process.attempt p) Q E s :=
  .attempt (calm.mono (fun _ => goes true) fun _ => goes false)

theorem Calm.inventory (calm : Calm inventories s) {packages fonts : Option String}
    (listed : packages = s.packages ∨ packages = some (inventories s.memory.current.runtimeImageId.value).packages)
    (lettered : fonts = s.fonts ∨ fonts = some (inventories s.memory.current.runtimeImageId.value).fonts) :
    Calm inventories { s with packages := packages, fonts := fonts } := by
  have describes : s.Describes inventories s.memory.current.runtimeImageId.value →
      ImageHost.Describes inventories { s with packages := packages, fonts := fonts }
        s.memory.current.runtimeImageId.value := fun described =>
    ⟨listed.elim (fun same => same.trans described.1) id, lettered.elim (fun same => same.trans described.2) id⟩
  refine ⟨⟨fun absent => ⟨(calm.recoverable.settled absent).recorded, ?_⟩, fun journal there => ?_⟩, calm.held,
    fun whole journal there => ?_, calm.previous, calm.stuck⟩
  · have described := (calm.recoverable.settled absent).described
    rw [← calm.held absent] at described
    exact calm.held absent ▸ describes described
  · have sound := calm.recoverable.pending journal there
    exact ⟨sound.old, sound.new, sound.env⟩
  · have restored := calm.restored whole journal there
    refine ⟨restored.env, restored.recorded, ?_⟩
    rw [← calm.previous journal there]
    exact describes (calm.previous journal there ▸ restored.described)

/-- The inventory of the current runtime is written again. -/
theorem activates_renewInventory (calm : Calm inventories s) :
    Activates inventories (renewInventory inventories .revalidation s.memory.current.runtimeImageId.value)
      (fun _ => Calm inventories) (fun _ => Calm inventories) s := by
  have packed : Calm inventories { s with
      packages := some (inventories s.memory.current.runtimeImageId.value).packages } :=
    calm.inventory (.inr rfl) (.inl rfl)
  refine .bind (.ask ⟨calm.recoverable, trivial⟩ (fun _ => calm) fun _ _ _ => ?_)
  refine .bind (activates_modify ⟨calm.recoverable, trivial⟩ (fun _ => calm) fun _ _ => ?_)
  exact activates_modify ⟨packed.recoverable, trivial⟩ (fun _ => packed) fun _ _ =>
    packed.inventory (.inl rfl) (.inr rfl)

theorem activates_activateApplied {runtime : RuntimeRecord} (calm : Calm inventories s) :
    Activates inventories (activateApplied inventories id runtime) (fun _ => Calm inventories)
      (fun _ => Calm inventories) s :=
  .bind (.view ⟨calm.recoverable, trivial⟩ (activates_activateAndPersistState calm rfl))

theorem activates_run {task : ImageTask} (calm : Calm inventories s) :
    Activates inventories (task.run inventories id) (fun _ => Calm inventories) (fun _ => Calm inventories) s := by
  have visit : Recoverable inventories s ∧ JournalStep inventories .prepare s := ⟨calm.recoverable, trivial⟩
  cases task with
  | apply => exact .bind (.ask visit (fun _ => calm) fun _ _ _ => activates_activateApplied calm)
  | rollback =>
    refine .bind (.view ⟨calm.recoverable, trivial⟩ ?_)
    cases s.memory.previous with
    | none => exact calm
    | some target =>
      exact .bind (.ask visit (fun _ => calm) fun _ _ _ => activates_activateAndPersistState calm rfl)
  | refresh =>
    refine .bind (.ask visit (fun _ => calm) fun _ answer _ => ?_)
    split
    · exact calm
    · exact activates_activateApplied calm
  | revalidate =>
    exact .bind (.ask visit (fun _ => calm) fun _ _ _ => .bind (.view ⟨calm.recoverable, trivial⟩
      (activates_renewInventory calm)))
  | cleanup => exact .bind (.ask visit (fun _ => calm) fun _ _ _ => activates_persist calm trivial)

theorem activates_finish {saved : ImageSite} {status : OperationStatus}
    (plain : ∀ u, JournalStep inventories saved u) (calm : Calm inventories s) :
    Activates inventories (do
      let _ ← Process.attempt (Process.modify saved (ImageHost.record id (some status)))
      let _ ← Process.attempt (Process.modify .persistFinished ImageHost.persist)
      pure () : ImageProcess Unit) (fun _ => Calm inventories) (fun _ => Calm inventories) s :=
  .bind (activates_attempt (activates_alike calm (plain s) alike_record) fun _ _ held =>
    .bind (activates_attempt (activates_persist held trivial) fun _ _ later => later))

theorem activates_undoOperation {earlier : Option Nat} {error : ImageError} {Q : Unit → ImageHost → Prop}
    (calm : Calm inventories s) :
    Activates inventories (do
      undoOperation id earlier
      throw error : ImageProcess Unit) Q (fun _ => Calm inventories) s := by
  have renamed : Calm inventories { s with memory := { s.memory with lastOperationId := earlier } } :=
    calm.alike ⟨rfl, rfl, rfl, rfl, rfl, rfl, rfl⟩
  exact .bind (.bind (.mark ⟨calm.recoverable, trivial⟩ (.bind (activates_attempt
    (activates_alike renamed trivial alike_record) fun _ _ held => .bind (activates_attempt
      (activates_persist held trivial) fun _ _ later => later)))))

theorem activates_startOperation {task : ImageTask} (calm : Calm inventories s) :
    Activates inventories (startOperation inventories task) (fun _ => Calm inventories)
      (fun _ => Calm inventories) s := by
  refine .bind (.ask ⟨calm.recoverable, trivial⟩ (fun _ => calm) fun _ id _ => ?_)
  refine .bind (.view ⟨calm.recoverable, trivial⟩ ?_)
  have named : Calm inventories { s with memory := { s.memory with lastOperationId := some id } } :=
    calm.alike ⟨rfl, rfl, rfl, rfl, rfl, rfl, rfl⟩
  refine .bind (.mark ⟨calm.recoverable, trivial⟩ (.bind (.handle (.bind ?_))))
  have saves : Activates inventories (Process.modify .saveStart (ImageHost.record id (some .running)))
      (fun _ => Calm inventories) (fun _ => Calm inventories)
      { s with memory := { s.memory with lastOperationId := some id } } :=
    activates_alike named trivial alike_record
  have persists : ∀ t, Calm inventories t → Activates inventories (Process.modify .persistStart ImageHost.persist)
      (fun _ => Calm inventories) (fun _ => Calm inventories) t := fun _ held => activates_persist held trivial
  refine saves.mono (fun _ t held => ?_) fun _ _ held => activates_undoOperation held
  refine (persists t held).mono (fun _ u later => ?_) fun _ _ later => activates_undoOperation later
  refine .bind (.outcome ((activates_run later).mono (fun _ v ran => ?_) fun _ v ran => ?_))
  · exact activates_finish (fun _ => trivial) ran
  · exact activates_finish (fun _ => trivial) ran

theorem activates_serveImageRequest {request : ImageRequest} {E : ImageError → ImageHost → Prop}
    (calm : Calm inventories s) :
    Activates inventories (serveImageRequest inventories request) (fun _ => Calm inventories) E s := by
  refine .bind (.mark ⟨calm.recoverable, trivial⟩ (.bind (activates_attempt ?_ fun _ _ held => held)))
  cases request with
  | operation task => exact activates_startOperation calm
  | country => exact activates_persist calm trivial

end Requests

section Starts

variable {inventories : List Char → ImageInventory} {s t : ImageHost}

/-- A recovery that fails does not refuse, and leaves a host that a later one recovers. -/
def NotRefused (inventories : List Char → ImageInventory) (error : ImageError) (host : ImageHost) : Prop :=
  Recoverable inventories host ∧ error ≠ .unexpectedImage

theorem Recoverable.fails (recoverable : Recoverable inventories s) : NotRefused inventories .host s :=
  ⟨recoverable, by decide⟩

theorem recovers_read {α : Type} {site : ImageSite} {f : ImageHost → α} {Q : α → ImageHost → Prop}
    (visit : Recoverable inventories s ∧ JournalStep inventories site s) (goes : Q (f s) s) :
    Activates inventories (Process.ask site fun _ host => .ok (f host)) Q (NotRefused inventories) s := by
  refine .act visit (fun _ => visit.1.fails) (fun _ _ never => (nomatch never)) (fun _ _ _ same _ => ?_)
    (fun _ _ _ same _ => ?_)
  · cases same
    exact goes
  · cases same
    exact visit.1.fails

theorem recovers_call {site : ImageSite} {Q : Unit → ImageHost → Prop}
    (visit : Recoverable inventories s ∧ JournalStep inventories site s) (goes : Q () s) :
    Activates inventories (imageCall site) Q (NotRefused inventories) s := recovers_read visit goes

theorem recovers_renewInventory {journal : ActivationJournal} {image : List Char} {Q : Unit → ImageHost → Prop}
    (owned : Owned journal s) (goes : ∀ t, Owned journal t → t.env = s.env → t.state = s.state →
      t.memory = s.memory → t.Describes inventories image → Q () t) :
    Activates inventories (renewInventory inventories .recovery image) Q (NotRefused inventories) s := by
  have packed := owned.keep (t := { s with packages := some (inventories image).packages }) rfl rfl rfl
  refine .bind (recovers_call (owned.visit trivial) (.bind (activates_modify (owned.visit trivial)
    (fun _ => owned.recoverable.fails) fun _ _ => ?_)))
  refine activates_modify (packed.visit trivial) (fun _ => packed.recoverable.fails) fun _ _ => ?_
  exact goes _ (packed.keep rfl rfl rfl) rfl rfl rfl ⟨rfl, rfl⟩

theorem recovers_commitRecovered {journal : ActivationJournal} (owned : Owned journal s)
    (env : rendererImageFromEnv s.env = journal.newImageId.value) :
    Activates inventories (commitRecovered inventories journal) (fun _ => Calm inventories)
      (NotRefused inventories) s := by
  refine .bind (recovers_call (owned.visit trivial) (.bind (recovers_renewInventory owned
    fun t mine same _ _ described => ?_)))
  have recorded : Owned journal { t with memory := journal.nextState, state := journal.nextState } :=
    mine.keep rfl rfl rfl
  have committed : journal.Committed inventories { t with
      memory := journal.nextState
      state := journal.nextState } := ⟨by rw [← env, ← same], rfl, described⟩
  refine .bind (activates_modify (mine.visit trivial) (fun _ => mine.recoverable.fails) fun _ _ => ?_)
  refine .bind (activates_modify (recorded.visit fun other there => ?_) (fun _ => recorded.recoverable.fails)
    fun _ _ => recorded.commit committed rfl)
  cases recorded.written.symm.trans there
  exact committed

theorem recovers_restoreRecovered {journal : ActivationJournal} (owned : Owned journal s)
    (env : rendererImageFromEnv s.env = rendererImageFromEnv journal.oldEnv) :
    Activates inventories (restoreRecovered inventories journal) (fun _ => Calm inventories)
      (NotRefused inventories) s := by
  have named : rendererImageFromEnv journal.oldEnv ≠ [] :=
    owned.sound.old ▸ journal.previousState.current.runtimeImageId.nonempty
  have recorded : Owned journal { s with memory := journal.previousState, state := journal.previousState } :=
    owned.keep rfl rfl rfl
  refine .bind (activates_modify (owned.visit trivial) (fun _ => owned.recoverable.fails) fun _ _ => .bind ?_)
  rw [if_neg named]
  refine .bind (recovers_call (recorded.visit trivial) (recovers_renewInventory recorded
    fun t mine same kept held described => ?_))
  have restored : journal.Restored inventories t :=
    ⟨by rw [same, ← env], by rw [kept], owned.sound.old ▸ described⟩
  refine .bind (activates_modify (mine.visit fun other there => ?_) (fun _ => mine.recoverable.fails)
    fun _ _ => (mine.restore restored (by rw [held])).2)
  cases mine.written.symm.trans there
  exact restored

theorem recovers_recoverPendingActivation (recoverable : Recoverable inventories s)
    (loaded : s.memory = s.state) (whole : s.incomplete = false) :
    Activates inventories (recoverPendingActivation inventories) (fun _ => Calm inventories)
      (NotRefused inventories) s := by
  refine .bind (recovers_read ⟨recoverable, trivial⟩ ?_)
  cases there : s.journal with
  | none =>
    exact ⟨recoverable, fun _ => by rw [loaded], fun _ journal same => absurd (there.symm.trans same) (by simp),
      fun journal same => absurd (there.symm.trans same) (by simp), fun stuck =>
      (Bool.false_ne_true (whole.symm.trans stuck)).elim⟩
  | some journal =>
    have owned : Owned journal s := ⟨there, recoverable.pending journal there, whole⟩
    refine .bind (recovers_read ⟨recoverable, trivial⟩ ?_)
    split
    · next new =>
      exact .bind ((recovers_commitRecovered owned new).mono (fun _ _ held => held) fun _ _ held => held)
    · next notNew =>
      split
      · next old =>
        exact .bind ((recovers_restoreRecovered owned old).mono (fun _ _ held => held) fun _ _ held => held)
      · next notOld =>
        rcases owned.sound.env with same | same
        · exact absurd (congrArg rendererImageFromEnv same) notOld
        · exact absurd (same ▸ rendererImageFromEnv_withImage) notNew

/-- The outcome of the operation that was interrupted is recorded. -/
theorem recovers_recoverInterruptedOperation {outcome : Option ActivationOutcome} (calm : Calm inventories s) :
    Activates inventories (recoverInterruptedOperation outcome) (fun _ => Calm inventories)
      (NotRefused inventories) s := by
  refine .bind (.view ⟨calm.recoverable, trivial⟩ ?_)
  cases s.memory.lastOperationId with
  | none => exact calm
  | some id =>
    refine .bind (recovers_read ⟨calm.recoverable, trivial⟩ ?_)
    split
    · have recorded : ∀ status, Calm inventories (s.record id status) := fun _ => calm.alike alike_record
      refine .bind (activates_modify ⟨calm.recoverable, trivial⟩ (fun _ => calm.recoverable.fails) fun _ _ => ?_)
      exact activates_modify ⟨(recorded _).recoverable, trivial⟩ (fun _ => (recorded _).recoverable.fails)
        fun _ _ => (recorded _).persist
    · exact calm

/-- A start of the manager brings a calm host about. -/
theorem recovers_startImageManager (recoverable : Recoverable inventories s) :
    Activates inventories (startImageManager inventories) (fun _ => Calm inventories) (NotRefused inventories) s := by
  have loaded : Recoverable inventories { s with memory := s.state, incomplete := false } :=
    ⟨fun absent => ⟨(recoverable.settled absent).recorded, (recoverable.settled absent).described⟩,
      fun journal there => ⟨(recoverable.pending journal there).old, (recoverable.pending journal there).new,
        (recoverable.pending journal there).env⟩⟩
  refine .bind (activates_modify ⟨recoverable, trivial⟩ (fun _ => recoverable.fails) fun _ _ => ?_)
  exact .bind ((recovers_recoverPendingActivation loaded rfl rfl).mono
    (fun _ _ calm => recovers_recoverInterruptedOperation calm) fun _ _ held => held)

theorem activates_imageManager {requests : List ImageRequest} (recoverable : Recoverable inventories s) :
    Activates inventories (imageManager inventories requests) (fun _ => Recoverable inventories)
      (NotRefused inventories) s := by
  refine .bind ((recovers_startImageManager recoverable).mono (fun _ t calm => ?_) fun _ _ held => held)
  refine .bind ((Process.careful.each (P := Calm inventories)
    (fun request u held => activates_serveImageRequest held) calm).mono (fun _ u held => ?_) fun _ _ held => held)
  exact .mark ⟨held.recoverable, trivial⟩ held.recoverable

/-- What the lives of the manager promise. -/
def activationPromise (inventories : List Char → ImageInventory) :
    Service.CriticalPromise ImageSite (List ImageRequest) ImageHost ImageError Unit fun _ _ => True where
  Inv := Recoverable inventories
  At site host := Recoverable inventories host ∧ JournalStep inventories site host
  Returns _ _ _ := Recoverable inventories
  Raises _ _ := NotRefused inventories
  at_inv _ held := held.1
  returns_inv held := held
  raises_inv held := held.1

end Starts

section Journal

variable {inventories : List Char → ImageInventory} {id : Nat}

/-- The steps that write or remove the journal. -/
def ImageSite.ChangesJournal : ImageSite → Prop
  | .writeJournal => True
  | .removeCommitted => True
  | .removeRecovered _ => True
  | .removeRestored => True
  | _ => False

/-- The steps that commit an activation. -/
def ImageSite.Commits : ImageSite → Prop
  | .removeCommitted => True
  | .removeRecovered true => True
  | _ => False

/-- All other steps leave the journal and what is committed as they are. -/
structure JournalFrame (site : ImageSite) (s t : ImageHost) : Prop where
  journal : t.journal = s.journal ∨ site.ChangesJournal
  committed : ∀ id, t.committed id = true → s.committed id = true ∨
    site.Commits ∧ ∃ journal, s.journal = some journal ∧ journal.operationId = id
  commits : site.Commits → t.journal = s.journal ∨ t = s.commit

theorem journal_same {site : ImageSite} {s t : ImageHost} (journal : t.journal = s.journal)
    (committed : t.committed = s.committed) : JournalFrame site s t :=
  ⟨.inl journal, fun _ done => .inl (committed ▸ done), fun _ => .inl journal⟩

theorem journal_modify {site : ImageSite} {f : ImageHost → ImageHost}
    (same : ∀ s, (f s).journal = s.journal ∧ (f s).committed = s.committed) :
    (Process.modify site f : ImageProcess Unit).Steps JournalFrame :=
  .modify (fun _ => journal_same rfl rfl) fun s => journal_same (same s).1 (same s).2

theorem journal_changes {site : ImageSite} {f : ImageHost → ImageHost} (changes : site.ChangesJournal)
    (plain : ¬ site.Commits) (same : ∀ s, (f s).committed = s.committed) :
    (Process.modify site f : ImageProcess Unit).Steps JournalFrame :=
  .modify (fun _ => journal_same rfl rfl) fun s =>
    ⟨.inr changes, fun _ done => .inl (same s ▸ done), fun commits => absurd commits plain⟩

theorem journal_commit {site : ImageSite} (changes : site.ChangesJournal) (commits : site.Commits) :
    (Process.modify site ImageHost.commit : ImageProcess Unit).Steps JournalFrame := by
  refine .modify (fun _ => journal_same rfl rfl) fun s =>
    ⟨.inr changes, fun id done => ?_, fun _ => .inr rfl⟩
  simp only [ImageHost.commit, Bool.or_eq_true, Option.any_eq_true, decide_eq_true_eq] at done
  exact done.symm.imp_right fun found => ⟨commits, found⟩

theorem journal_ask {α : Type} {site : ImageSite} {f : ImageAnswer → ImageHost → Except ImageError α} :
    (Process.ask site f).Steps JournalFrame := .ask fun _ => journal_same rfl rfl

theorem journal_view {α : Type} {site : ImageSite} {f : ImageHost → α} :
    (Process.view site f : ImageProcess α).Steps JournalFrame := .view fun _ => journal_same rfl rfl

theorem journal_writeInventory {writer : InventoryWriter} {packages fonts : Option String} :
    (writeInventory writer packages fonts).Steps JournalFrame :=
  .bind (journal_modify fun _ => ⟨rfl, rfl⟩) fun _ => journal_modify fun _ => ⟨rfl, rfl⟩

theorem journal_renewInventory {writer : InventoryWriter} {image : List Char} :
    (renewInventory inventories writer image).Steps JournalFrame :=
  .bind journal_ask fun _ => journal_writeInventory

theorem journal_startImageManager : (startImageManager inventories).Steps JournalFrame := by
  refine .bind (journal_modify fun _ => ⟨rfl, rfl⟩) fun _ => .bind (.bind journal_ask fun journal => ?_) fun outcome =>
    .bind journal_view fun id => ?_
  · split
    · trivial
    refine .bind journal_ask fun configured => ?_
    split
    · exact .bind (.bind journal_ask fun _ => .bind journal_renewInventory fun _ =>
        .bind (journal_modify fun _ => ⟨rfl, rfl⟩) fun _ => .bind (journal_commit trivial trivial) fun _ => trivial) fun _ => trivial
    split
    · refine .bind (.bind (journal_modify fun _ => ⟨rfl, rfl⟩) fun _ => .bind ?_ fun _ =>
        .bind (journal_changes trivial (fun never => never) fun _ => rfl) fun _ => trivial) fun _ => trivial
      split
      · trivial
      · exact .bind journal_ask fun _ => journal_renewInventory
    · trivial
  · split
    · trivial
    · refine .bind journal_ask fun saved => ?_
      split
      · exact .bind (journal_modify fun _ => ⟨rfl, rfl⟩) fun _ => journal_modify fun _ => ⟨rfl, rfl⟩
      · trivial

theorem journal_activateAndPersistState {previousState nextState : RuntimeState} {image : ImageId} :
    (activateAndPersistState inventories id previousState nextState image).Steps JournalFrame := by
  refine .bind journal_ask fun _ => .bind journal_ask fun oldEnv => .bind journal_ask fun oldInventory =>
    .bind (journal_changes trivial (fun never => never) fun _ => rfl) fun _ => .handle (.bind ?_ fun _ => .bind journal_writeInventory fun _ =>
      .bind (journal_modify fun _ => ⟨rfl, rfl⟩) fun _ => journal_commit trivial trivial) fun error =>
    .bind (.bind (.mark fun _ => journal_same rfl rfl) fun _ => .bind ?_ fun restored =>
      .bind (.attempt (journal_modify fun _ => ⟨rfl, rfl⟩)) fun _ => ?_) fun _ => trivial
  · split
    · exact .bind (journal_modify fun _ => ⟨rfl, rfl⟩) fun _ => journal_ask
    · trivial
  · refine .bind (.attempt (journal_modify fun _ => ⟨rfl, rfl⟩)) fun _ => .bind ?_ fun _ =>
      .bind (.attempt journal_writeInventory) fun _ => trivial
    split
    · exact .attempt journal_ask
    · trivial
  · split
    · exact .bind (.attempt (journal_changes trivial (fun never => never) fun _ => rfl)) fun _ => trivial
    · exact .mark fun _ => journal_same rfl rfl

theorem journal_run {task : ImageTask} : (task.run inventories id).Steps JournalFrame := by
  have applies : ∀ runtime, (activateApplied inventories id runtime).Steps JournalFrame := fun _ =>
    .bind journal_view fun _ => journal_activateAndPersistState
  cases task with
  | apply => exact .bind journal_ask fun _ => applies _
  | rollback =>
    refine .bind journal_view fun previousState => ?_
    split
    · trivial
    · exact .bind journal_ask fun _ => journal_activateAndPersistState
  | refresh =>
    refine .bind journal_ask fun answer => ?_
    split
    · trivial
    · exact applies _
  | revalidate => exact .bind journal_ask fun _ => .bind journal_view fun _ => journal_renewInventory
  | cleanup => exact .bind journal_ask fun _ => journal_modify fun _ => ⟨rfl, rfl⟩

theorem journal_serveImageRequest {request : ImageRequest} :
    (serveImageRequest inventories request).Steps JournalFrame := by
  refine .bind (.mark fun _ => journal_same rfl rfl) fun _ => .bind (.attempt ?_) fun _ => trivial
  cases request with
  | country => exact journal_modify fun _ => ⟨rfl, rfl⟩
  | operation task =>
    have finishes : ∀ (site : ImageSite) (id : Nat) (status : OperationStatus), (do
        let _ ← Process.attempt (Process.modify site (ImageHost.record id (some status)))
        let _ ← Process.attempt (Process.modify .persistFinished ImageHost.persist)
        pure () : ImageProcess Unit).Steps JournalFrame := fun _ _ _ =>
      .bind (.attempt (journal_modify fun _ => ⟨rfl, rfl⟩)) fun _ =>
        .bind (.attempt (journal_modify fun _ => ⟨rfl, rfl⟩)) fun _ => trivial
    refine .bind journal_ask fun id => .bind journal_view fun earlier => .bind (.mark fun _ => journal_same rfl rfl) fun _ =>
      .bind (.handle (.bind (journal_modify fun _ => ⟨rfl, rfl⟩) fun _ => journal_modify fun _ => ⟨rfl, rfl⟩) fun error =>
        .bind (.bind (.mark fun _ => journal_same rfl rfl) fun _ => .bind (.attempt (journal_modify fun _ => ⟨rfl, rfl⟩)) fun _ =>
          .bind (.attempt (journal_modify fun _ => ⟨rfl, rfl⟩)) fun _ => trivial) fun _ => trivial) fun _ =>
      .bind (.outcome journal_run) fun result => ?_
    cases result with
    | ok _ => exact finishes .saveSucceeded id .succeeded
    | error _ => exact finishes .saveFailed id .failed

theorem journal_imageManager {requests : List ImageRequest} :
    (imageManager inventories requests).Steps JournalFrame :=
  .bind journal_startImageManager fun _ => .bind (.each fun _ => journal_serveImageRequest) fun _ =>
    .mark fun _ => journal_same rfl rfl

end Journal

/-- In a run of the manager, with errors and crashes at any steps, in which no activation begins in a process
whose last restoration was incomplete and no complete restoration fails to write back a state file that names
the new image: without a journal the host is consistent, a journal goes or is written over only when its
activation is committed or fully restored, and recovery refuses nothing. -/
theorem image_activation {inventories : List Char → ImageInventory}
    {origin host : Host (List ImageRequest) ImageSite ImageHost ImageAnswer ImageError Unit}
    {events : List (HostEvent (List ImageRequest) ImageSite ImageAnswer ImageError Unit Empty)}
    (init : (imageService inventories).machine.Init origin)
    (run : Run ((imageService inventories).carefulMachine
      (fun site host reply => ¬ breaksActivation site host reply) fun _ _ => True) origin events host) :
    (host.shared.journal = none → host.shared.Consistent inventories) ∧
      (∀ event target journal, ((imageService inventories).carefulMachine
        (fun site host reply => ¬ breaksActivation site host reply) fun _ _ => True).Step host event target →
        host.shared.journal = some journal → target.shared.journal ≠ some journal →
        journal.Committed inventories host.shared ∨ journal.Restored inventories host.shared) ∧
      ∀ session, host.running = some session → session.rest ≠ .raise .unexpectedImage := by
  have starts : Recoverable inventories origin.shared :=
    ⟨fun _ => init.1.2.1, fun journal there => absurd (init.1.1.symm.trans there) (by simp)⟩
  have calls : ∀ call s, Recoverable inventories s → Activates inventories ((imageService inventories).program call)
      (fun _ => Recoverable inventories) (NotRefused inventories) s := fun _ _ held => activates_imageManager held
  have kept : (activationPromise inventories).Kept (fun site host reply => ¬ breaksActivation site host reply) host :=
    Service.careful_run calls (fun change => change.elim) init.2 starts run
  refine ⟨(kept.inv fun session _ => by cases session.rest <;> trivial).settled, ?_, ?_⟩
  · rintro event target journal ⟨taken, permitted⟩ there gone
    cases event with
    | advance site reply =>
      have frame : JournalFrame site host.shared target.shared :=
        Service.steps_advance (fun _ => journal_imageManager) init run.of_restrict taken
      have plain : JournalStep inventories site host.shared := (kept.at taken).2
      rcases frame.journal with same | changes
      · exact absurd (same.trans there) gone
      cases site with
      | writeJournal =>
        have whole : host.shared.incomplete = false := Bool.eq_false_iff.mpr fun stuck => permitted (by
          cases reply <;> first | exact stuck | trivial)
        exact .inr (plain whole journal there)
      | removeCommitted => exact .inl (plain journal there)
      | removeRestored => exact .inr (plain journal there)
      | removeRecovered committed =>
        cases committed with
        | true => exact .inl (plain journal there)
        | false => exact .inr (plain journal there)
      | _ => exact changes.elim
    | begin call =>
      cases taken
      exact absurd there gone
    | finish call result => cases taken <;> exact absurd there gone
    | crash =>
      cases taken
      exact absurd there gone
    | drift change => exact change.elim
  · intro session running never
    unfold Service.CriticalPromise.Kept at kept
    rw [running] at kept
    have ends : Process.careful _ _ _ _ session.rest host.shared := kept
    rw [never] at ends
    exact ends.2 rfl

section Examples

/-- Images. -/
def imageA : ImageId := ⟨['a'], by decide, by decide⟩

def imageB : ImageId := ⟨['b'], by decide, by decide⟩

/-- The inventory of an image lists its name. -/
def listedInventory (image : List Char) : ImageInventory := ⟨String.ofList image, String.ofList image⟩

/-- The first image is active. -/
def activeHost : ImageHost where
  env := [imageKey ++ imageA.value, []]
  packages := some (listedInventory imageA.value).packages
  fonts := some (listedInventory imageA.value).fonts
  state := ⟨⟨imageA, false⟩, none, none⟩
  journal := none
  operation := fun _ => none
  memory := ⟨⟨imageA, false⟩, none, none⟩
  incomplete := false
  begun := fun _ => false
  committed := fun _ => false

theorem init_activeHost : (imageService listedInventory).machine.Init ⟨activeHost, none⟩ := by
  refine ⟨⟨rfl, ⟨by decide, rfl, rfl⟩, fun id => ?_, fun _ => ⟨rfl, rfl⟩⟩, rfl⟩
  intro never
  cases never

/-- An answer about an operation and its image. -/
def imageAnswer (id : Nat) (image : ImageId) : Reply ImageAnswer := .done ⟨id, ⟨image, false⟩, false⟩

/-- Answers without an error. -/
def imageReplies (count id : Nat) (image : ImageId) : List (Reply ImageAnswer) :=
  List.replicate count (imageAnswer id image)

/-- A life of the manager. -/
abbrev managerExample (requests : List ImageRequest) : ImageProcess Unit := imageManager listedInventory requests

/-- The host while the first activation restarts the renderer. -/
def restartedHost : ImageHost :=
  (Service.exec (managerExample [.operation .apply]) activeHost (imageReplies 16 1 imageB)).2

theorem run_restartedHost : Run ((imageService listedInventory).carefulMachine
    (fun site host reply => ¬ breaksActivation site host reply) fun _ _ => True) ⟨activeHost, none⟩
    (.begin [.operation .apply] :: (Service.trace (managerExample [.operation .apply]) activeHost
      (imageReplies 16 1 imageB) ++ [.crash])) ⟨restartedHost, none⟩ := by
  refine Service.careful_killed (imageService listedInventory) [.operation .apply] ?_ trivial
  exact ⟨id, id, id, id, id, id, id, id, id, id, id, id, id, id, fun never => (nomatch never), id, trivial⟩

/-- What a crash in the first activation leaves. -/
theorem image_activation_restarted : (restartedHost.journal = none → restartedHost.Consistent listedInventory) ∧
    (∀ event target journal, ((imageService listedInventory).carefulMachine
      (fun site host reply => ¬ breaksActivation site host reply) fun _ _ => True).Step ⟨restartedHost, none⟩ event
        target → restartedHost.journal = some journal → target.shared.journal ≠ some journal →
      journal.Committed listedInventory restartedHost ∨ journal.Restored listedInventory restartedHost) ∧
    ∀ session, (none : Option (Session (List ImageRequest) ImageSite ImageHost ImageAnswer ImageError Unit)) =
      some session → session.rest ≠ .raise .unexpectedImage :=
  image_activation init_activeHost run_restartedHost

/-- The restart fails after the first activation has written `renderer.env`, and so does its restoration; the
second activation writes its journal over the first, fails at once and is restored. -/
def strayReplies : List (Reply ImageAnswer) :=
  imageReplies 16 1 imageB ++ .refused :: imageAnswer 1 imageB :: .refused :: imageReplies 18 2 imageA ++
    .refused :: imageReplies 9 2 imageA

/-- The host after that. -/
def strayHost : ImageHost :=
  (Service.exec (managerExample [.operation .apply, .operation .apply]) activeHost strayReplies).2

theorem strayHost_image : rendererImageFromEnv strayHost.env = imageB.value := by decide

theorem strayHost_recorded : strayHost.state.current.runtimeImageId = imageA := rfl

/-- Without a journal, `renderer.env` and the state name different images. -/
theorem image_activation_strays : ∃ (origin host : Host (List ImageRequest) ImageSite ImageHost ImageAnswer ImageError
      Unit) (events : List (HostEvent (List ImageRequest) ImageSite ImageAnswer ImageError Unit Empty)),
    (imageService listedInventory).machine.Init origin ∧ Run (imageService listedInventory).machine origin events host ∧
      host.running = none ∧ host.shared.journal = none ∧ ¬ host.shared.Consistent listedInventory := by
  refine ⟨⟨activeHost, none⟩, ⟨strayHost, none⟩, _, init_activeHost,
    Service.run_killed (imageService listedInventory) activeHost [.operation .apply, .operation .apply] strayReplies,
    rfl, rfl, fun consistent => ?_⟩
  have recorded := consistent.recorded
  rw [strayHost_image, strayHost_recorded] at recorded
  exact absurd recorded (by decide)

end Examples

end LatexRenderer
