import LatexRenderer.Previews.Changes

/-! # The meters of the preview queue

The running requests, the waiting ones and the waiting ones of each user are meters with a limit each:
a claim finds the renderer free, and a request finds the queues below their bounds.
-/

namespace LatexRenderer

open Machine

/-- What the queue bounds. -/
inductive PreviewMeter where
  | running
  | waiting
  | owned (userId : String)

namespace PreviewMeter

def limit : PreviewMeter → Nat
  | .running => 1
  | .waiting => maxWaitingPreviews
  | .owned _ => maxOwnedPreviews

/-- The requests that the meter counts. -/
def counts : PreviewMeter → PreviewRow → Bool
  | .running, row => row.status == .running
  | _, row => row.waits

/-- The users whose requests the meter counts. -/
def concerns (userId : String) : PreviewMeter → Bool
  | .owned user => userId == user
  | _ => true

/-- What a transaction adds to a meter that concerns its user. -/
def adds : PreviewMeter → DatabaseAction → Nat
  | .running, .claimPreview .. => 1
  | .waiting, .requestPreview .. | .waiting, .requestPreviewAgain .. => 1
  | .owned _, .requestPreview .. | .owned _, .requestPreviewAgain .. => 1
  | _, _ => 0

end PreviewMeter

/-- A transaction that is not of the preview queue adds to no meter. -/
theorem PreviewMeter.adds_seeing (meter : PreviewMeter) (db : Database) {action : DatabaseAction}
    (elsewhere : action.ofPreviewQueue = false) : meter.adds (db.seeingPreviews action) = 0 := by
  have seen : (db.seeingPreviews action).ofPreviewQueue = false := by
    unfold Database.seeingPreviews
    split
    · rfl
    · rfl
    · exact elsewhere
  generalize db.seeingPreviews action = statement at seen
  cases statement with
  | requestPreview | requestPreviewAgain | claimPreview | reservePreview | publishPreview => cases seen
  | _ => cases meter <;> rfl

/-- What a job adds to a meter. -/
def JobRecord.previewWeight (meter : PreviewMeter) (record : JobRecord) : Nat :=
  if meter.concerns record.job.row.userId then record.previews.countP meter.counts else 0

def PreviewSystem.usage (system : PreviewSystem) (meter : PreviewMeter) : Nat :=
  total (·.previewWeight meter) system.db.jobs

section Weights

variable {limits : Limits} {action : DatabaseAction} {meter : PreviewMeter} {record new : JobRecord}

/-- A request that was running counts in every meter it can count in. -/
private theorem counts_running {row : PreviewRow} (running : row.status = .running) :
    meter.counts row = true := by
  cases meter <;> simp [PreviewMeter.counts, PreviewRow.waits, running]

theorem PreviewRow.finish_ended {workerId : String} {attempt : Nat} {errorCode : Option String}
    {timestamp : Timestamp} {row after : PreviewRow}
    (finished : row.finish workerId attempt errorCode timestamp = some after) :
    row.ownedBy workerId attempt ∧ (after.status = .failed ∨ after.status = .succeeded) := by
  obtain ⟨held, eq⟩ := (Option.ite_none_right_eq_some ..).mp finished
  rw [← Option.some.inj eq]
  cases errorCode <;> simp [held]

/-- A request counts in a meter after a statement only if it did before or the statement adds to it. -/
theorem PreviewRow.Change.counts {row after : PreviewRow} (change : row.Change action after)
    (counted : meter.counts after = true) : meter.counts row = true ∨ 1 ≤ meter.adds action := by
  cases change with
  | requestedAgain updated =>
    obtain ⟨_, eq⟩ := (Option.ite_none_right_eq_some ..).mp updated
    rw [← Option.some.inj eq] at counted
    cases meter with
    | running => simp [PreviewMeter.counts] at counted
    | waiting | owned => exact .inr (Nat.le_refl 1)
  | claimed updated =>
    obtain ⟨⟨queued, _⟩, _⟩ := (Option.ite_none_right_eq_some ..).mp updated
    cases meter with
    | running => exact .inr (Nat.le_refl 1)
    | waiting | owned => exact .inl (by simp [PreviewMeter.counts, PreviewRow.waits, queued])
  | recovered updated | reserved updated =>
    exact .inl (counts_running ((Option.ite_none_right_eq_some ..).mp updated).1.1.1)
  | failed updated | published _ updated =>
    exact .inl (counts_running (PreviewRow.finish_ended updated).1.1)

/-- A transaction adds to the meters of its record no more than its kind says. -/
theorem JobRecord.Change.counts_le (change : record.Change limits action new) :
    new.previews.countP meter.counts ≤ record.previews.countP meter.counts + meter.adds action := by
  cases change.previews with
  | same _ same =>
    rw [same]
    exact Nat.le_add_right ..
  | cleared _ cleared => simp [cleared]
  | appended jobId sequence page timestamp named _ rows =>
    rw [named, rows, List.countP_append]
    refine Nat.add_le_add_left ?_ _
    cases meter <;> simp [PreviewMeter.counts, PreviewMeter.adds, PreviewRow.waits, PreviewRow.inserted]
  | updated _ _ _ updated changes => exact countP_update?_le updated fun changed => (changes changed).counts

theorem JobRecord.Change.previewWeight_le (change : record.Change limits action new) :
    new.previewWeight meter ≤ record.previewWeight meter +
      if meter.concerns record.job.row.userId then meter.adds action else 0 := by
  have user : new.job.row.userId = record.job.row.userId := congrArg JobIdentity.userId change.follows.identity_eq
  have counts : new.previews.countP meter.counts ≤ record.previews.countP meter.counts + meter.adds action :=
    change.counts_le
  simp only [previewWeight, user]
  split
  · exact counts
  · exact Nat.zero_le _

end Weights

section Usage

variable {limits : Limits} {system next : PreviewSystem}

theorem PreviewSystem.usage_owned (system : PreviewSystem) (userId : String) :
    system.usage (.owned userId) = system.db.ownedWaitingPreviews userId := by
  rw [Database.ownedWaitingPreviews, total_filter]
  rfl

/-- No request runs exactly when the meter of the running ones is at zero. -/
theorem PreviewSystem.usage_running (system : PreviewSystem) :
    system.usage .running = 0 ↔ system.db.previewRunning = false := by
  rw [usage, total_eq_zero_iff, Database.previewRunning, List.any_eq_false]
  refine forall₂_congr fun record _ => ?_
  simp [JobRecord.previewRunning, JobRecord.previewWeight, PreviewMeter.concerns, PreviewMeter.counts]

/-- A transaction has found room for what it adds to the meters. -/
theorem PreviewSystem.Makes.admits {statement : DatabaseAction} (makes : system.Makes statement)
    {record : JobRecord} (named : statement.jobId? = some record.job.row.id)
    (first : system.db.jobs.find? (·.job.row.id == record.job.row.id) = some record) :
    Admits system.usage PreviewMeter.limit fun meter =>
      if meter.concerns record.job.row.userId then meter.adds statement else 0 := by
  have asked {jobId : String} (same : jobId = record.job.row.id)
      (room : system.assertQueueRoom jobId = .ok ()) :
      system.usage .waiting < maxWaitingPreviews ∧
        system.usage (.owned record.job.row.userId) < maxOwnedPreviews := by
    subst same
    obtain ⟨all, owned⟩ := PreviewSystem.assertQueueRoom_ok room
    rw [PreviewSystem.usage_owned]
    exact ⟨all, owned record first⟩
  intro meter
  cases makes with
  | other elsewhere => exact .inl (by simp [PreviewMeter.adds_seeing meter system.db elsewhere])
  | request room | requestAgain room =>
    obtain ⟨all, owned⟩ := asked (Option.some.inj named) room
    cases meter with
    | running => exact .inl rfl
    | waiting => exact .inr all
    | owned userId =>
      dsimp only
      split
      next concerned =>
        obtain rfl := beq_iff_eq.mp concerned
        exact .inr owned
      next => exact .inl rfl
  | claim idle =>
    cases meter with
    | running =>
      have free := (Bool.or_eq_false_iff.mp idle).1
      refine .inr ?_
      rw [(PreviewSystem.usage_running system).mpr free]
      exact Nat.le_refl 1
    | waiting | owned => exact .inl (by simp [PreviewMeter.adds])
  | reserve | publish => exact .inl (by cases meter <;> simp [PreviewMeter.adds])

/-- A transaction adds to a meter no more than its kind says. -/
theorem DatabaseAction.run_previewWeight_le {statement : DatabaseAction} {db after : Database}
    (meter : PreviewMeter) (ran : statement.run limits db = some after) :
    total (·.previewWeight meter) after.jobs ≤ total (·.previewWeight meter) db.jobs + meter.adds statement := by
  cases DatabaseAction.run_jobs ran with
  | fewer _ fewer => exact Nat.le_add_right_of_le (total_le_of_sublist _ fewer)
  | inserted _ row _ _ rows => simp [rows, JobRecord.previewWeight]
  | changed before record rest new _ old _ change rows =>
    have heavier : new.previewWeight meter ≤ record.previewWeight meter + _ := change.previewWeight_le
    simp only [old, rows, total_append, total_cons]
    split at heavier <;> omega

theorem previewMachine_metered (limits : Limits) :
    Metered (previewMachine limits) PreviewSystem.usage PreviewMeter.limit where
  init := by
    rintro system ⟨jobs, _⟩ meter
    simp [PreviewSystem.usage, jobs]
  step := by
    intro system action next _ taken
    rcases PreviewAction.run_commits taken with ⟨_, rfl⟩ | ⟨statement, commits⟩
    · exact ⟨_, Admits.zero, fun _ => Nat.le_refl _⟩
    · cases DatabaseAction.run_jobs commits.ran with
      | fewer _ fewer => exact ⟨_, Admits.zero, fun meter => total_le_of_sublist _ fewer⟩
      | inserted _ row _ _ rows =>
        refine ⟨_, Admits.zero, fun meter => ?_⟩
        have weightless : JobRecord.previewWeight meter { job := { row := row } } = 0 := by
          simp [JobRecord.previewWeight]
        simp [PreviewSystem.usage, rows, weightless]
      | changed before record after new named old first change rows =>
        refine ⟨_, commits.makes.admits named first, fun meter => ?_⟩
        have heavier : new.previewWeight meter ≤ record.previewWeight meter + _ := change.previewWeight_le
        simp only [PreviewSystem.usage, old, rows, total_append, total_cons]
        omega

end Usage

end LatexRenderer
