import LatexRenderer.Deploy.RetentionProgress

/-! # The retention of releases over whole runs

Captures and collections follow each other in any order, each may fail or be killed at any step, and
between them deployments publish directories and move the current link, or the power is lost.
-/

namespace LatexRenderer

open Machine

/-- What one step of a call changes: never the current link; the ledger when it is written; directories
when a recorded one is moved to the trash or removed there, by the call that the step belongs to. -/
structure RetentionChange (operation : RetentionOperation) (site : RetentionSite)
    (s t : Journaled RetentionDisk) : Prop where
  current : t.current.current = s.current.current
  ledger : t.current.ledger = s.current.ledger ∨
    ∃ value, site = .renameLedger value ∧ t.current.ledger = some value
  releases : t.current.releases = s.current.releases ∨
    ∃ options entry, operation = .collect options ∧
      (site = .renameRelease options entry ∨ site = .unlinkTrash options entry ∨
        site = .removeTrash options entry) ∧
      ∀ name, t.current.releases name ≠ s.current.releases name → name = entry.trash ∨
        (name = entry.id ∧ t.current.releases name = none ∧
          t.current.releases entry.trash = s.current.releases name)

section Steps

variable {operation : RetentionOperation} {root : List String} {options : CollectOptions}

theorem retentionChange_refl {site : RetentionSite} (s : Journaled RetentionDisk) :
    RetentionChange operation site s s := ⟨rfl, .inl rfl, .inl rfl⟩

theorem steps_retentionAsk {β : Type} {site : RetentionSite}
    {f : RetentionAnswer → RetentionDisk → Except RetentionError β} :
    (retentionAsk site f).Steps (RetentionChange operation) := .ask retentionChange_refl

theorem steps_retentionModify {site : RetentionSite} {f : RetentionDisk → RetentionDisk}
    (moves : ∀ s : Journaled RetentionDisk, RetentionChange operation site s (s.update f)) :
    (retentionModify site f).Steps (RetentionChange operation) := .modify retentionChange_refl moves

theorem steps_retentionSync {site : RetentionSite} :
    (Process.modify site Journaled.sync : RetentionProcess Unit).Steps (RetentionChange operation) :=
  .modify retentionChange_refl fun _ => ⟨rfl, .inl rfl, .inl rfl⟩

theorem steps_saveLedger {value : ReleaseLedger} :
    (saveLedger value).Steps (RetentionChange operation) := by
  refine .bind steps_retentionAsk fun stale => .bind ?_ fun _ => .bind (.act retentionChange_refl ?_) fun _ =>
    .bind (steps_retentionModify fun s => ⟨rfl, .inr ⟨value, rfl, rfl⟩, .inl rfl⟩) fun _ =>
    steps_retentionSync
  · split
    · exact steps_retentionModify fun s => ⟨rfl, .inl rfl, .inl rfl⟩
    · trivial
  · intro answer s _ t created
    split at created
    · cases created
    · cases created
      exact ⟨rfl, .inl rfl, .inl rfl⟩

theorem steps_releaseIdentity {id : String} : (releaseIdentity id).Steps (RetentionChange operation) :=
  .bind .require fun _ => steps_retentionAsk

theorem steps_captureReleaseRetention {now : Nat} :
    (captureReleaseRetention root now).Steps (RetentionChange operation) := by
  refine .bind steps_retentionAsk fun _ => .bind steps_retentionAsk fun found =>
    .bind steps_retentionAsk fun current => .bind ?_ fun ledger => .bind ?_ fun _ => steps_saveLedger
  · cases validateLedger (found.getD ⟨none, [], []⟩) <;> trivial
  · unfold identifyFirst
    split
    · split
      · exact steps_releaseIdentity
      · trivial
    · trivial

theorem steps_checkRecorded {keep : List String} {entry : DeletingRelease} :
    (checkRecorded root options keep entry).Steps (RetentionChange operation) := by
  refine .bind .require fun _ => .bind steps_retentionAsk fun original => .bind steps_retentionAsk fun trash =>
    .bind .require fun _ => .bind ?_ fun _ => ?_
  · split
    · exact .bind steps_releaseIdentity fun _ => steps_retentionAsk
    · trivial
  · split
    · exact steps_retentionAsk
    · trivial

theorem steps_selectReleases {keep owned : List String} {remove : List DeletingRelease}
    {names : List String} :
    (selectReleases root options keep owned remove names).Steps (RetentionChange operation) := by
  induction names generalizing remove with
  | nil => trivial
  | cons name rest ih =>
    unfold selectReleases
    split
    · exact ih
    split
    · exact .bind .require fun _ => ih
    refine .bind (.bind .require fun _ => .bind steps_retentionAsk fun _ => ?_) fun _ => ih
    split
    · exact .bind steps_releaseIdentity fun _ => .bind steps_retentionAsk fun _ =>
        .bind steps_retentionAsk fun _ => trivial
    · trivial

theorem steps_deleteRelease {entry : DeletingRelease} :
    (deleteRelease options entry).Steps (RetentionChange (.collect options)) := by
  have trash : ∀ {site : RetentionSite} {f : RetentionDisk → Option ReleaseDirectory}
      {s : Journaled RetentionDisk}, (site = .unlinkTrash options entry ∨ site = .removeTrash options entry) →
      RetentionChange (.collect options) site s (s.update fun disk => disk.place entry.trash (f disk)) := by
    intro site f s either
    refine ⟨rfl, .inl rfl, .inr ⟨options, entry, rfl, .inr either, fun name changed => .inl ?_⟩⟩
    by_contra other
    exact changed (if_neg other)
  refine .bind steps_retentionAsk fun original => .bind ?_ fun _ => .bind steps_retentionAsk fun _ =>
    .bind (.bind (.act retentionChange_refl ?_) fun _ => steps_retentionModify fun s => trash (.inr rfl))
    fun _ => .bind steps_retentionSync fun _ => steps_retentionAsk
  · split
    · refine .bind (.act retentionChange_refl fun answer s _ t step => ?_) fun _ => steps_retentionSync
      split at step
      · cases step
      · next moved found =>
        cases step
        obtain ⟨directory, present, rfl⟩ := moveRelease_eq found
        refine ⟨rfl, .inl rfl, .inr ⟨options, entry, rfl, .inl rfl, fun name changed => ?_⟩⟩
        by_cases trashed : name = entry.trash
        · exact .inl trashed
        have moved : (if name = entry.trash then some directory
            else if name = entry.id then none else s.current.releases name) ≠ s.current.releases name :=
          changed
        rw [if_neg trashed] at moved
        have here : name = entry.id := by
          by_contra other
          exact moved (if_neg other)
        subst here
        refine .inr ⟨rfl, ?_, ?_⟩
        · simp [RetentionDisk.place, trashed]
        · simp [RetentionDisk.place, present]
    · trivial
  · intro answer s _ t step
    cases step
    exact trash (.inl rfl)

theorem steps_deleteReleases {ledger : ReleaseLedger} {remaining : List DeletingRelease} :
    (deleteReleases options ledger remaining).Steps (RetentionChange (.collect options)) := by
  induction remaining generalizing ledger with
  | nil => trivial
  | cons entry rest ih => exact .bind steps_deleteRelease fun _ => .bind steps_saveLedger fun _ => ih

theorem steps_collectReleases :
    (collectReleases root options).Steps (RetentionChange (.collect options)) := by
  refine .bind steps_retentionAsk fun _ => .bind steps_retentionAsk fun ledger =>
    .bind steps_retentionAsk fun _ => .bind .require fun _ => .bind .require fun _ =>
    .bind steps_releaseIdentity fun _ => .bind .require fun _ => ?_
  refine .bind (.each fun id => .bind steps_retentionAsk fun there => ?_) fun _ =>
    .bind (.each fun entry => steps_checkRecorded) fun _ => .bind steps_retentionAsk fun names =>
    .bind steps_selectReleases fun remove => .bind steps_saveLedger fun _ => .bind steps_retentionAsk fun _ =>
    .bind steps_deleteReleases fun _ => trivial
  split
  · exact steps_releaseIdentity
  · trivial

theorem steps_retentionOperation (operation : RetentionOperation) :
    (operation.process root).Steps (RetentionChange operation) := by
  cases operation with
  | capture now => exact .bind steps_captureReleaseRetention fun _ => trivial
  | collect options => exact .bind steps_collectReleases fun _ => trivial

end Steps

section Runs

/-- What every call promises. -/
def retentionPromise (root : List String) : Service.Promise RetentionSite RetentionOperation
    (Journaled RetentionDisk) RetentionError (Option CollectResult) where
  Inv s := s.Always RetentionDisk.Sound
  At := RetentionSite.Meets root
  Returns _ _ _ s := s.Always RetentionDisk.Sound
  Raises _ _ _ s := s.Always RetentionDisk.Sound
  at_inv := And.left
  returns_inv := id
  raises_inv := id

theorem wp_retentionOperation {root : List String} (operation : RetentionOperation)
    {s : Journaled RetentionDisk} (sound : s.Always RetentionDisk.Sound) :
    (operation.process root).wp Process.anyAnswer (fun _ t => t.Always RetentionDisk.Sound) RetentionFailed
      (RetentionSite.Meets root) s := by
  cases operation with
  | capture now =>
    exact Process.wp_bind.mpr ((wp_captureReleaseRetention sound).mono (fun _ _ held => held)
      (fun _ _ held => held) fun _ _ held => held)
  | collect options =>
    exact Process.wp_bind.mpr ((wp_collectReleases sound).mono (fun _ _ held => held)
      (fun _ _ held => held) fun _ _ held => held)

/-- Deployments and power losses keep the trash recorded. -/
theorem retentionDrift_sound {change : RetentionDrift} {s t : Journaled RetentionDisk}
    (sound : s.Always RetentionDisk.Sound) (moved : change.apply s = some t) :
    t.Always RetentionDisk.Sound := by
  cases change with
  | publish name directory =>
    simp only [RetentionDrift.apply] at moved
    split at moved
    · cases moved
    · next free =>
      cases moved
      exact sound.update (sound.1.place fun placed _ trash => absurd (.inr trash) free)
  | discard name =>
    simp only [RetentionDrift.apply] at moved
    split at moved
    · cases moved
      exact sound.update (sound.1.place fun placed never => by cases never)
    · cases moved
  | moveCurrent path =>
    cases moved
    exact sound.update ⟨sound.1.ledger, sound.1.trash⟩
  | powerLoss age =>
    cases moved
    exact sound.lose age

/-- A host with the call that runs on it. -/
abbrev RetentionMachine : Type :=
  Host RetentionOperation RetentionSite (Journaled RetentionDisk) RetentionAnswer RetentionError
    (Option CollectResult)

/-- What happens to a host. -/
abbrev RetentionEvent : Type :=
  HostEvent RetentionOperation RetentionSite RetentionAnswer RetentionError (Option CollectResult)
    RetentionDrift

/-- The active release, the last verified previous one, the newest three verified ones and those that the
running call protects. -/
def RetentionMachine.Keeps (root : List String) (id : String) (host : RetentionMachine) : Prop :=
  host.shared.current.current = some (root ++ [id]) ∨
    (∃ value, host.shared.current.ledger = some value ∧
      (value.previous = some id ∨ id ∈ value.successful.map VerifiedRelease.id)) ∨
    ∃ session options, host.running = some session ∧ session.call = .collect options ∧
      id ∈ options.protectedIds

/-- What holds of a host that is reached. `kept`: a step of a call leaves the releases that are kept, and
the current link, alone. `recorded`: what a step changes under a name belongs to an entry of the journal
that is safe on the disk, and a release that loses its name is in the trash then. `ledger`: how a written
ledger comes from the one before. `newest`: it holds at most three verified releases. `finishes`: when no
step fails, a later collection over files that let it through finishes what is recorded. -/
structure RetentionHolds (root : List String) (host : RetentionMachine) : Prop where
  kept : ∀ site reply target id, (retentionService root).Step host (.advance site reply) target →
    RetentionMachine.Keeps root id host →
    target.shared.current.releases id = host.shared.current.releases id ∧
      target.shared.current.current = host.shared.current.current
  recorded : ∀ site reply target name, (retentionService root).Step host (.advance site reply) target →
    target.shared.current.releases name ≠ host.shared.current.releases name →
    ∃ entry : DeletingRelease, entry.Recorded host.shared ∧ (name = entry.trash ∨
      (name = entry.id ∧ target.shared.current.releases name = none ∧
        target.shared.current.releases entry.trash = host.shared.current.releases name))
  ledger : ∀ site reply target, (retentionService root).Step host (.advance site reply) target →
    target.shared.current.ledger = host.shared.current.ledger ∨
      ∃ value, target.shared.current.ledger = some value ∧ LedgerChange root host.shared.current value
  newest : ∀ value, host.shared.current.ledger = some value →
    value.successful.length ≤ 3 ∧ (value.successful.map VerifiedRelease.id).Nodup
  finishes : ∀ options ledger, host.running = none → host.shared.current.ledger = some ledger →
    options.Ready root ledger host.shared.current →
    ((RetentionOperation.collect options).process root).Completes (fun _ t => ledger.Finished t.current)
      host.shared ∧
    ∃ events result, ∃ target : Journaled RetentionDisk, ledger.Finished target.current ∧
      Run (retentionService root).machine host
        (.begin (.collect options) :: (events ++ [.finish (.collect options) (.ok result)])) ⟨target, none⟩

theorem retentionService_governed {root : List String} {origin host : RetentionMachine}
    {events : List RetentionEvent} (init : (retentionService root).machine.Init origin)
    (run : Run (retentionService root).machine origin events host) :
    Service.Governed Process.anyAnswer (retentionPromise root) host := by
  refine Service.governed ?_ (fun operation s held => wp_retentionOperation operation held) ?_ init run ?_
  · rintro s ⟨unsynced, absent, empty⟩
    refine ⟨⟨fun value found => ?_, fun name directory found trash => ?_⟩, ?_⟩
    · cases absent.symm.trans found
    · cases (empty name trash).symm.trans found
    · simp [unsynced]
  · exact fun change s t held moved => retentionDrift_sound held moved
  · intro event _
    cases event <;> trivial

/-- In every run of captures, collections and deployments, with an error or a crash at any step and power
losses in between, every host that is reached is as `RetentionHolds` says. -/
theorem release_retention {root : List String} {origin host : RetentionMachine}
    {events : List RetentionEvent} (init : (retentionService root).machine.Init origin)
    (run : Run (retentionService root).machine origin events host) : RetentionHolds root host := by
  have governed := retentionService_governed init run
  have sound : host.shared.Always RetentionDisk.Sound := governed.inv
  have changes : ∀ {site reply} {target : RetentionMachine},
      (retentionService root).Step host (.advance site reply) target → ∃ session,
        host.running = some session ∧ RetentionChange session.call site host.shared target.shared :=
    fun taken => Service.steps_session steps_retentionOperation init run taken
  have frees : ∀ {site reply} {target : RetentionMachine} {options : CollectOptions}
      {entry : DeletingRelease}, (retentionService root).Step host (.advance site reply) target →
      (site = .renameRelease options entry ∨ site = .unlinkTrash options entry ∨
        site = .removeTrash options entry) → entry.Free root options host.shared := by
    rintro site reply target options entry taken (rfl | rfl | rfl)
    · exact (governed.at taken).2
    · exact (governed.at taken).2
    · exact (governed.at taken).2
  refine ⟨?_, ?_, ?_, ?_, ?_⟩
  · intro site reply target id taken keeps
    obtain ⟨session, running, change⟩ := changes taken
    refine ⟨?_, change.current⟩
    rcases change.releases with same | ⟨options, entry, call, visited, moved⟩
    · rw [same]
    · have free := frees taken visited
      have spared : ∀ name, name = entry.id ∨ name = entry.trash →
          host.shared.current.Spares root options name := by
        rintro name (rfl | rfl)
        · exact free.original
        · exact free.trash
      by_contra changed
      have spares := spared id ((moved id changed).symm.imp And.left fun same => same)
      rcases keeps with here | ⟨value, found, before | listed⟩ | ⟨other, asked, same, call', named⟩
      · exact spares.current here
      · exact spares.previous value found before
      · exact spares.verified value found listed
      · cases running.symm.trans same
        cases call.symm.trans call'
        exact spares.named named
  · intro site reply target name taken changed
    obtain ⟨session, running, change⟩ := changes taken
    rcases change.releases with same | ⟨options, entry, call, visited, moved⟩
    · exact absurd (congrFun same name) changed
    · exact ⟨entry, (frees taken visited).recorded, moved name changed⟩
  · intro site reply target taken
    obtain ⟨session, running, change⟩ := changes taken
    rcases change.ledger with same | ⟨value, rfl, written⟩
    · exact .inl same
    · exact .inr ⟨value, written, (governed.at taken).2⟩
  · intro value found
    have valid := sound.1.ledger value found
    exact ⟨valid.count, valid.distinct⟩
  · intro options ledger idle found ready
    have completes : ((RetentionOperation.collect options).process root).Completes
        (fun _ t => ledger.Finished t.current) host.shared :=
      .bind ((collectReleases_completes sound found ready).mono fun _ _ finished => finished)
    obtain ⟨replies, result, target, ends, finished⟩ := Service.exists_exec _ _ completes
    obtain ⟨shared, running⟩ := host
    cases idle
    exact ⟨completes, _, result, target, finished, Service.run_call (retentionService root) ends⟩

/-- Where the releases lie. -/
def exampleReleases : List String := ["opt", "latex-renderer", "releases"]

/-- The release that is active. -/
def activeExample : String := "v1.0.0-aaaaaaaaaaaa"

/-- An older one. -/
def olderExample : String := "v0.9.0-bbbbbbbbbbbb"

/-- A directory with the metadata of a release. -/
def exampleDirectory (id : String) : ReleaseDirectory where
  identity := some id
  entries := [{ path := ["package.json"], kind := .file }]

/-- Two releases are published, and the link names one of them. -/
def publishedExample : Journaled RetentionDisk where
  current := ⟨none, false, fun name =>
    if name = activeExample then some (exampleDirectory activeExample)
    else if name = olderExample then some (exampleDirectory olderExample) else none,
    some (exampleReleases ++ [activeExample])⟩

/-- The options of the deployment. -/
def exampleOptions : CollectOptions := ⟨activeExample, [], true, 7, []⟩

/-- Answers without an incident. -/
def exampleReplies (steps : Nat) : List (Reply RetentionAnswer) :=
  List.replicate steps (.done { names := [olderExample, activeExample] })

/-- After the capture. -/
def capturedExample : Journaled RetentionDisk :=
  (Service.exec ((RetentionOperation.capture 5).process exampleReleases) publishedExample
    (exampleReplies 8)).2

/-- The collection is killed when the older release is in the trash. -/
def killedExample : Journaled RetentionDisk :=
  (Service.exec ((RetentionOperation.collect exampleOptions).process exampleReleases) capturedExample
    (exampleReplies 20)).2

/-- A deployment of the older release fails after its directory was published again. -/
def republishedExample : Journaled RetentionDisk :=
  killedExample.update (RetentionDisk.place olderExample (some (exampleDirectory olderExample)))

/-- What the killed collection had recorded. -/
def recordedExample : DeletingRelease := ⟨olderExample, trashName olderExample default⟩

theorem init_publishedExample :
    (retentionService exampleReleases).machine.Init ⟨publishedExample, none⟩ := by
  refine ⟨⟨rfl, rfl, fun name trash => ?_⟩, rfl⟩
  have active : name ≠ activeExample := by
    rintro rfl
    exact absurd trash (by decide)
  have older : name ≠ olderExample := by
    rintro rfl
    exact absurd trash (by decide)
  show (if name = activeExample then _ else if name = olderExample then _ else none) = none
  rw [if_neg active, if_neg older]

theorem run_killedExample : ∃ events, .crash ∈ events ∧
    Run (retentionService exampleReleases).machine ⟨publishedExample, none⟩ events ⟨killedExample, none⟩ := by
  have ends : Service.exec ((retentionService exampleReleases).program (.capture 5)) publishedExample
      (exampleReplies 8) = (Process.ofExcept (.ok none), capturedExample) := Prod.ext rfl rfl
  have captured := Service.run_call (retentionService exampleReleases) ends
  have killed := Service.run_killed (retentionService exampleReleases) capturedExample
    (.collect exampleOptions) (exampleReplies 20)
  exact ⟨_, by simp, captured.append killed⟩

theorem killedExample_ledger : killedExample.current.ledger =
    some ⟨some activeExample, [⟨activeExample, 7⟩], [recordedExample]⟩ := rfl

theorem killedExample_releases (name : String) : killedExample.current.releases name =
    if name = recordedExample.trash then some (exampleDirectory olderExample)
    else if name = olderExample then none else publishedExample.current.releases name := rfl

theorem killedExample_cases {name : String} {directory : ReleaseDirectory}
    (found : killedExample.current.releases name = some directory) :
    (name = recordedExample.trash ∧ directory = exampleDirectory olderExample) ∨
      (name = activeExample ∧ directory = exampleDirectory activeExample) := by
  rw [killedExample_releases] at found
  split at found
  · next trash => exact .inl ⟨trash, (Option.some.inj found).symm⟩
  split at found
  · cases found
  · change (if name = activeExample then some (exampleDirectory activeExample)
      else if name = olderExample then some (exampleDirectory olderExample) else none) = some directory at found
    split at found
    · next active => exact .inr ⟨active, (Option.some.inj found).symm⟩
    · cases found

theorem exampleDirectory_contained (id : String) : (exampleDirectory id).Contained := by
  intro entry member target link
  obtain rfl := List.mem_singleton.mp member
  cases link

theorem killedExample_ready : exampleOptions.Ready exampleReleases
    ⟨some activeExample, [⟨activeExample, 7⟩], [recordedExample]⟩ killedExample.current := by
  refine ⟨rfl, rfl, by decide, by simp [exampleOptions], ?_, ?_, ?_, ?_, ?_, by simp [exampleOptions]⟩
  · intro entry member
    obtain rfl := List.mem_singleton.mp member
    decide
  · intro entry member
    obtain rfl := List.mem_singleton.mp member
    exact .inl rfl
  · intro name directory found _ outside
    rcases killedExample_cases found with ⟨rfl, rfl⟩ | ⟨rfl, rfl⟩
    · exact absurd outside (by decide)
    · exact ⟨by decide, rfl, rfl⟩
  · intro name directory found _ outside unkept
    rcases killedExample_cases found with ⟨rfl, rfl⟩ | ⟨rfl, rfl⟩
    · exact absurd outside (by decide)
    · exact absurd unkept (by decide)
  · intro name directory found _ _
    rcases killedExample_cases found with ⟨rfl, rfl⟩ | ⟨rfl, rfl⟩ <;> exact exampleDirectory_contained _

/-- A collection is killed when a release is in the trash; a later one finishes. -/
theorem release_retention_killed :
    ∃ origin events, ∃ host : RetentionMachine, ∃ ledger,
      (retentionService exampleReleases).machine.Init origin ∧
      Run (retentionService exampleReleases).machine origin events host ∧ .crash ∈ events ∧
      host.shared.current.ledger = some ledger ∧ recordedExample ∈ ledger.deleting ∧
      exampleOptions.Ready exampleReleases ledger host.shared.current ∧
      RetentionHolds exampleReleases host := by
  obtain ⟨events, crashed, run⟩ := run_killedExample
  exact ⟨_, events, _, _, init_publishedExample, run, crashed, killedExample_ledger, by simp,
    killedExample_ready, release_retention init_publishedExample run⟩

/-- A deployment that fails publishes the release again; from then on every collection is refused. -/
theorem release_retention_refused :
    ∃ origin events, ∃ host : RetentionMachine, ∃ ledger,
      (retentionService exampleReleases).machine.Init origin ∧
      Run (retentionService exampleReleases).machine origin events host ∧ .crash ∈ events ∧
      host.running = none ∧
      host.shared.current.current = some (exampleReleases ++ [exampleOptions.releaseId]) ∧
      host.shared.current.ledger = some ledger ∧ recordedExample ∈ ledger.deleting ∧
      ∀ options replies result target,
        Service.exec ((retentionService exampleReleases).program (.collect options)) host.shared replies ≠
          (.ret result, target) := by
  obtain ⟨events, crashed, run⟩ := run_killedExample
  have published : (retentionService exampleReleases).drift
      (.publish olderExample (exampleDirectory olderExample)) killedExample = some republishedExample := by
    show (if (killedExample.current.releases olderExample).isSome ∨ inTrash olderExample then none
      else some republishedExample) = some republishedExample
    exact if_neg (by decide)
  refine ⟨_, _, ⟨republishedExample, none⟩, _, init_publishedExample,
    run.append (.single (.drift _ _ _ published)), by simp [crashed], rfl, rfl, killedExample_ledger, by simp,
    fun options replies result target ends => ?_⟩
  have never := collectReleases_ambiguous exampleReleases options (s := republishedExample)
    recordedExample killedExample_ledger (by simp) rfl rfl
  exact Service.exec_returns (Q := fun _ _ => False) (Process.wp_bind.mpr (never.mono
    (fun _ _ impossible => impossible.elim) (fun _ _ held => held) fun _ _ held => held)) ends

end Runs

end LatexRenderer
