import Mathlib.Data.List.Nodup
import LatexRenderer.Admission.JobBytes
import LatexRenderer.Model.Database

/-! # What a job with its previews weighs on the quotas

`JobRecord.Sound` is the invariant of one job: an active job has its output reserved, a claim that
renders finds the job running, and a run of `processPreview` that still owns its request finds there the
bytes it reserved. Under it no statement on the job or its previews adds weight, but the SVG requeue and
the reservation of a preview page, which are admitted first.
-/

namespace LatexRenderer

open Machine

/-- The meters that admission reads. -/
inductive Quota where
  | storage (userId : String)
  | queue
  | userQueue (userId : String)
  | accountQueue (serviceAccountId : String)

/-- The bytes a running preview request has reserved. -/
def PreviewRow.runningBytes (row : PreviewRow) : Nat :=
  if row.status == .running then row.reservedBytes else 0

/-- The bytes a job counts for with its running previews. -/
def JobRecord.bytes (record : JobRecord) : Nat :=
  (if record.job.row.status = .deleted then 0 else record.job.row.storageBytes) + record.previewBytes

/-- What a job adds to a meter. -/
def JobRecord.weight : Quota → JobRecord → Nat
  | .storage userId, record => if record.job.row.userId = userId then record.bytes else 0
  | .queue, record => if record.job.row.status ∈ JobStatus.active then 1 else 0
  | .userQueue userId, record =>
    if record.job.row.userId = userId ∧ record.job.row.status ∈ JobStatus.active then 1 else 0
  | .accountQueue serviceAccountId, record =>
    if record.job.row.serviceAccountId = serviceAccountId ∧ record.job.row.status ∈ JobStatus.active
    then 1 else 0

/-- The growth of the meters by one more active job with these bytes. -/
def jobGrowth (userId serviceAccountId : String) (bytes : Nat) : Quota → Nat
  | .storage user => if userId = user then bytes else 0
  | .queue => 1
  | .userQueue user => if userId = user then 1 else 0
  | .accountQueue account => if serviceAccountId = account then 1 else 0

/-- The growth of the meters by bytes of a user. -/
def storageGrowth (userId : String) (bytes : Nat) : Quota → Nat
  | .storage user => if userId = user then bytes else 0
  | _ => 0

/-- A request that no worker runs has nothing reserved. -/
def PreviewRow.Idle (row : PreviewRow) : Prop :=
  row.status ≠ .running → row.reservedBytes = 0

/-- A run of `processPreview` that still owns its request finds the bytes it reserved. -/
structure PreviewRun.Reserved (run : PreviewRun) (row : PreviewRow) : Prop where
  attempt : run.attempt ≤ row.attempt
  bytes : row.attempt = run.attempt → row.status = .running → row.reservedBytes = run.limit

/-- The invariant of a job with its previews. -/
structure JobRecord.Sound (maxOutputBytes : Nat) (record : JobRecord) : Prop where
  reserved : record.job.row.FullyReserved maxOutputBytes
  live : record.job.row.lifecycle.LiveUnrendered
  settled : record.job.row.lifecycle.DeletionSettled
  rendering : ∀ fence ∈ record.rendering, record.job.row.lifecycle.Rendering fence
  distinct : (record.previews.map (·.sequence)).Nodup
  idle : ∀ row ∈ record.previews, row.Idle
  limits : ∀ run ∈ record.previewRuns, 1 ≤ run.limit
  runs : ∀ run ∈ record.previewRuns, ∀ row ∈ record.previews, row.sequence = run.sequence →
    run.Reserved row

variable {maxOutputBytes : Nat} {record next : JobRecord}

theorem JobRecord.previewBytes_eq (record : JobRecord) :
    record.previewBytes = total PreviewRow.runningBytes record.previews :=
  total_filter ..

/-- A record of the same user and account that is not newly active weighs more by its further bytes. -/
theorem JobRecord.weight_le_add {further : Nat} (user : next.job.row.userId = record.job.row.userId)
    (account : next.job.row.serviceAccountId = record.job.row.serviceAccountId)
    (active : next.job.row.status ∈ JobStatus.active → record.job.row.status ∈ JobStatus.active)
    (bytes : next.bytes ≤ record.bytes + further) (quota : Quota) :
    next.weight quota ≤ record.weight quota + storageGrowth record.job.row.userId further quota := by
  cases quota with
  | storage userId =>
    simp only [weight, storageGrowth, user]
    split
    · exact bytes
    · exact Nat.le_refl 0
  | queue =>
    simp only [weight, storageGrowth]
    split
    next now => rw [if_pos (active now)]
    next => exact Nat.zero_le _
  | userQueue userId =>
    simp only [weight, storageGrowth, user]
    split
    next now => rw [if_pos ⟨now.1, active now.2⟩]
    next => exact Nat.zero_le _
  | accountQueue serviceAccountId =>
    simp only [weight, storageGrowth, account]
    split
    next now => rw [if_pos ⟨now.1, active now.2⟩]
    next => exact Nat.zero_le _

/-- A record of the same user and account that is not newly active and counts for no more bytes weighs
no more. -/
theorem JobRecord.weight_le (user : next.job.row.userId = record.job.row.userId)
    (account : next.job.row.serviceAccountId = record.job.row.serviceAccountId)
    (active : next.job.row.status ∈ JobStatus.active → record.job.row.status ∈ JobStatus.active)
    (bytes : next.bytes ≤ record.bytes) (quota : Quota) : next.weight quota ≤ record.weight quota := by
  have grown : next.weight quota ≤ record.weight quota + storageGrowth record.job.row.userId 0 quota :=
    weight_le_add user account active bytes quota
  have none : storageGrowth record.job.row.userId 0 quota = 0 := by
    cases quota <;> simp [storageGrowth]
  omega

/-- A record of this user and account weighs no more than one active job with its bytes. -/
theorem JobRecord.weight_le_growth {bytes : Nat} (within : record.bytes ≤ bytes) (quota : Quota) :
    record.weight quota ≤
      jobGrowth record.job.row.userId record.job.row.serviceAccountId bytes quota := by
  cases quota with
  | storage userId =>
    simp only [weight, jobGrowth]
    split
    · exact within
    · exact Nat.le_refl 0
  | queue =>
    simp only [weight, jobGrowth]
    split <;> omega
  | userQueue userId =>
    simp only [weight, jobGrowth]
    split
    next now => rw [if_pos now.1]
    next => exact Nat.zero_le _
  | accountQueue serviceAccountId =>
    simp only [weight, jobGrowth]
    split
    next now => rw [if_pos now.1]
    next => exact Nat.zero_le _

section Act

variable {action : JobAction}

/-- An action in its program's order is no requeue, and a finalization follows its own start. -/
theorem JobRecord.follows_retry (follows : record.follows action = true) : action.event ≠ .requeueSvg := by
  intro same
  cases action with
  | requeueSvg => cases follows
  | worker fence operation => cases operation <;> cases same
  | _ => cases same

theorem JobRecord.act_eq_some (acted : record.act maxOutputBytes action = some next) :
    record.follows action = true ∧ ∃ job, action.run maxOutputBytes record.job = some job ∧
      next = { record with
        job := job
        previews := record.previewsAfter action
        rendering := record.renderingAfter action } := by
  simp only [act, Option.ite_none_right_eq_some, Option.map_eq_some_iff] at acted
  obtain ⟨follows, job, ran, rfl⟩ := acted
  exact ⟨follows, job, ran, rfl⟩

/-- The job keeps the previews, or loses them with its artifacts. -/
theorem JobRecord.previewsAfter_cases (record : JobRecord) (action : JobAction) :
    record.previewsAfter action = record.previews ∨ record.previewsAfter action = [] := by
  unfold previewsAfter
  split
  · exact .inr rfl
  · exact .inl rfl

/-- A claim that has moved the job to running finds it running when it finalizes. -/
private theorem finalizes_running {fence : Fence} (sound : record.Sound maxOutputBytes)
    (started : fence ∈ record.rendering) (held : record.job.row.ownedBy fence)
    (leased : record.job.row.status ∈ JobStatus.leased) : record.job.row.status ∈ JobStatus.active := by
  obtain ⟨status, _⟩ := (sound.rendering fence started).running held
  change record.job.row.status = .running ∨ _ at status
  rcases status with running | deleting | deleted
  · simp [running]
  · exact absurd leased (by rw [show record.job.row.status = _ from deleting]; decide)
  · exact absurd leased (by rw [show record.job.row.status = _ from deleted]; decide)

/-- What an action does to the output columns of a sound record. -/
theorem JobRecord.act_output (sound : record.Sound maxOutputBytes) {job : Job}
    (follows : record.follows action = true) (ran : action.run maxOutputBytes record.job = some job) :
    OutputStep maxOutputBytes record.job.row job.row := by
  refine JobAction.run_output ran (JobRecord.follows_retry follows) ?_
  rintro fence run artifacts now rfl held leased
  exact finalizes_running sound (by simpa [JobRecord.follows] using follows) held leased

/-- The claims that render after an action find the job running. -/
private theorem act_rendering (sound : record.Sound maxOutputBytes) {job : Job}
    (ran : action.run maxOutputBytes record.job = some job) :
    ∀ fence ∈ record.renderingAfter action, job.row.lifecycle.Rendering fence := by
  have kept : ∀ fence ∈ record.rendering, job.row.lifecycle.Rendering fence :=
    fun fence member => (JobAction.run_step ran).rendering (sound.rendering fence member)
  intro fence member
  cases action with
  | worker holder operation =>
    cases operation with
    | startRunning now =>
      rcases List.mem_cons.mp member with rfl | older
      · have updated := Job.updateStatus_row ran
        simp only [JobRow.transitionOwned, Option.ite_none_right_eq_some, Option.some.injEq,
          List.mem_singleton] at updated
        obtain ⟨⟨held, validating⟩, same⟩ := updated
        rw [← same]
        exact Lifecycle.Rendering.start (s := record.job.row.lifecycle) held sound.live validating
      · exact kept fence older
    | _ => exact kept fence member
  | _ => exact kept fence member

theorem JobRecord.act_sound (acted : record.act maxOutputBytes action = some next)
    (sound : record.Sound maxOutputBytes) : next.Sound maxOutputBytes := by
  obtain ⟨follows, job, ran, rfl⟩ := act_eq_some acted
  have step := JobAction.run_step ran
  have output := act_output sound follows ran
  have previews : ∀ row ∈ record.previewsAfter action, row ∈ record.previews := by
    intro row member
    rcases record.previewsAfter_cases action with same | gone
    · rwa [same] at member
    · simp [gone] at member
  refine ⟨fun active => ?_, step.liveUnrendered sound.live, (step.deletionSettled sound.settled).1,
    act_rendering sound ran, ?_, fun row member => sound.idle row (previews row member), sound.limits,
    fun run member row older => sound.runs run member row (previews row older)⟩
  · rw [output.reserved]
    exact sound.reserved (step.active_before (follows_retry follows) active)
  · change ((record.previewsAfter action).map (·.sequence)).Nodup
    rcases record.previewsAfter_cases action with same | gone
    · rw [same]
      exact sound.distinct
    · rw [gone]
      exact List.nodup_nil

theorem JobRecord.act_weight (acted : record.act maxOutputBytes action = some next)
    (sound : record.Sound maxOutputBytes) (quota : Quota) : next.weight quota ≤ record.weight quota := by
  obtain ⟨follows, job, ran, rfl⟩ := act_eq_some acted
  have step := JobAction.run_step ran
  have identity := JobAction.run_identity ran
  have active := step.active_before (follows_retry follows)
  have deleted := (step.deletionSettled sound.settled).2
  refine weight_le (congrArg JobIdentity.userId identity)
    (congrArg JobIdentity.serviceAccountId identity) active ?_ quota
  have storage := (JobRecord.act_output sound follows ran).storageBytes_le sound.reserved active identity
  have previews : total PreviewRow.runningBytes (record.previewsAfter action) ≤
      total PreviewRow.runningBytes record.previews := by
    rcases record.previewsAfter_cases action with same | gone
    · rw [same]
    · simp [gone]
  simp only [bytes, previewBytes_eq]
  refine Nat.add_le_add ?_ previews
  by_cases gone : record.job.row.status = .deleted
  · rw [if_pos (show job.row.status = .deleted from deleted gone), if_pos gone]
  · rw [if_neg gone]
    split
    · exact Nat.zero_le _
    · exact storage

end Act

section Previews

variable {row after : PreviewRow}

/-- What a statement on a preview request other than the reservation does. -/
structure PreviewStep (before after : PreviewRow) : Prop where
  sequence : after.sequence = before.sequence
  attempt : before.attempt ≤ after.attempt
  idle : before.Idle → after.Idle
  kept : after.attempt = before.attempt → after.status = .running →
    before.status = .running ∧ after.reservedBytes = before.reservedBytes
  bytes : before.Idle → after.runningBytes ≤ before.runningBytes

theorem PreviewRow.requestAgain_step {timestamp : Timestamp}
    (updated : row.requestAgain timestamp = some after) : PreviewStep row after := by
  simp only [requestAgain, Option.ite_none_right_eq_some, Option.some.injEq] at updated
  obtain ⟨⟨failed, _⟩, rfl⟩ := updated
  exact {
    sequence := rfl
    attempt := Nat.le_refl _
    idle := fun idle _ => idle (by simp [failed])
    kept := fun _ running => by cases running
    bytes := fun _ => Nat.zero_le _ }

theorem PreviewRow.claim_step {workerId : String} {timestamp : Timestamp}
    (updated : row.claim workerId timestamp = some after) : PreviewStep row after := by
  simp only [claim, Option.ite_none_right_eq_some, Option.some.injEq] at updated
  obtain ⟨⟨queued, _⟩, rfl⟩ := updated
  refine ⟨rfl, Nat.le_succ _, fun _ idle => absurd rfl idle, fun same => ?_, fun idle => ?_⟩
  · have same : row.attempt + 1 = row.attempt := same
    omega
  · have free : row.reservedBytes = 0 := idle (by simp [queued])
    simp [runningBytes, free]

theorem PreviewRow.claimRecovery_step {staleOwner workerId : String} {attempt : Nat}
    {timestamp : Timestamp} (updated : row.claimRecovery staleOwner attempt workerId timestamp = some after) :
    PreviewStep row after := by
  simp only [claimRecovery, Option.ite_none_right_eq_some, Option.some.injEq] at updated
  obtain ⟨⟨held, _⟩, rfl⟩ := updated
  exact ⟨rfl, Nat.le_refl _, id, fun _ _ => ⟨held.1, rfl⟩, fun _ => Nat.le_refl _⟩

theorem PreviewRow.finish_step {workerId : String} {attempt : Nat} {errorCode : Option String}
    {timestamp : Timestamp} (updated : row.finish workerId attempt errorCode timestamp = some after) :
    PreviewStep row after ∧ row.ownedBy workerId attempt ∧ after.runningBytes = 0 := by
  simp only [finish, Option.ite_none_right_eq_some, Option.some.injEq] at updated
  obtain ⟨held, rfl⟩ := updated
  have ended : (if errorCode.isSome then PreviewStatus.failed else .succeeded) ≠ .running := by
    split <;> decide
  refine ⟨⟨rfl, Nat.le_refl _, fun _ _ => rfl, fun _ running => absurd running ended, fun _ => ?_⟩, held, ?_⟩
  · simp [runningBytes]
  · simp [runningBytes]

/-- A statement on a request keeps what a run of `processPreview` relies on. -/
theorem PreviewStep.reserved (step : PreviewStep row after) {run : PreviewRun}
    (reserved : run.Reserved row) : run.Reserved after := by
  refine ⟨Nat.le_trans reserved.attempt step.attempt, fun same running => ?_⟩
  have unmoved : after.attempt = row.attempt :=
    Nat.le_antisymm (by rw [same]; exact reserved.attempt) step.attempt
  obtain ⟨before, bytes⟩ := step.kept unmoved running
  rw [bytes]
  exact reserved.bytes (unmoved.symm.trans same) before

theorem JobRecord.updatePreview_eq_some {sequence : Nat} {change : PreviewRow → Option PreviewRow}
    (updated : record.updatePreview sequence change = some next) :
    ∃ previews, update? (·.sequence == sequence) change record.previews = some previews ∧
      next = { record with previews := previews } := by
  obtain ⟨previews, found, rfl⟩ := Option.map_eq_some_iff.mp updated
  exact ⟨previews, found, rfl⟩

/-- A statement on a request keeps the record sound. -/
theorem JobRecord.updatePreview_sound {sequence : Nat} {change : PreviewRow → Option PreviewRow}
    (updated : record.updatePreview sequence change = some next)
    (steps : ∀ {row after}, change row = some after → PreviewStep row after)
    (sound : record.Sound maxOutputBytes) : next.Sound maxOutputBytes := by
  obtain ⟨previews, found, rfl⟩ := updatePreview_eq_some updated
  refine { sound with distinct := ?_, idle := ?_, runs := fun run member => ?_ }
  · change (previews.map (·.sequence)).Nodup
    rw [update?_map found fun changed => (steps changed).sequence]
    exact sound.distinct
  · exact update?_forall found (fun _ _ changed => (steps changed).idle) sound.idle
  · refine update?_forall found ?_ (sound.runs run member)
    intro row after _ _ changed reserved same
    exact (steps changed).reserved (reserved ((steps changed).sequence.symm.trans same))

theorem JobRecord.updatePreview_weight {sequence : Nat} {change : PreviewRow → Option PreviewRow}
    (updated : record.updatePreview sequence change = some next)
    (steps : ∀ {row after}, change row = some after → PreviewStep row after)
    (sound : record.Sound maxOutputBytes) (quota : Quota) : next.weight quota ≤ record.weight quota := by
  obtain ⟨previews, found, rfl⟩ := updatePreview_eq_some updated
  obtain ⟨row, after, first, _, changed, totals⟩ := total_update? found
  refine weight_le ?_ ?_ ?_ ?_ quota
  · rfl
  · rfl
  · exact id
  have same := totals PreviewRow.runningBytes
  have less := (steps changed).bytes (sound.idle row (List.mem_of_find?_eq_some first))
  simp only [bytes, previewBytes_eq]
  omega

/-- A new request is queued and has nothing reserved. -/
theorem JobRecord.requestPreview_sound {sequence page : Nat} {timestamp : Timestamp}
    (requested : record.requestPreview sequence page timestamp = some next)
    (sound : record.Sound maxOutputBytes) :
    next.Sound maxOutputBytes ∧ ∀ quota, next.weight quota ≤ record.weight quota := by
  simp only [requestPreview, Option.ite_none_left_eq_some, Option.some.injEq, Bool.or_eq_true,
    List.any_eq_true, not_or] at requested
  obtain ⟨⟨unknown, unused⟩, rfl⟩ := requested
  refine ⟨{ sound with distinct := ?_, idle := ?_, runs := ?_ }, weight_le ?_ ?_ ?_ ?_⟩
  · rw [List.map_append, List.nodup_append]
    refine ⟨sound.distinct, List.nodup_singleton _, fun number member other new same => ?_⟩
    obtain ⟨row, older, rfl⟩ := List.mem_map.mp member
    rw [List.mem_singleton.mp new] at same
    exact unknown ⟨row, older, .inl (beq_iff_eq.mpr same)⟩
  · intro row member
    rcases List.mem_append.mp member with older | new
    · exact sound.idle row older
    · rw [List.mem_singleton.mp new]
      exact fun _ => rfl
  · intro run ran row member same
    rcases List.mem_append.mp member with older | new
    · exact sound.runs run ran row older same
    · rw [List.mem_singleton.mp new] at same
      exact absurd ⟨run, ran, beq_iff_eq.mpr same.symm⟩ unused
  · rfl
  · rfl
  · exact id
  · simp [bytes, previewBytes_eq, PreviewRow.runningBytes, PreviewRow.inserted]

/-- The bytes that a run reserves are what its record grows by, and the run finds them there. -/
theorem JobRecord.reservePreview_sound {run : PreviewRun}
    (reserved : record.reservePreview maxOutputBytes run = some next)
    (sound : record.Sound maxOutputBytes) :
    next.Sound maxOutputBytes ∧ ∀ quota, next.weight quota ≤
      record.weight quota + storageGrowth record.job.row.userId run.limit quota := by
  simp only [reservePreview, Option.ite_none_right_eq_some, Option.map_eq_some_iff] at reserved
  obtain ⟨_, mid, updated, rfl⟩ := reserved
  obtain ⟨previews, found, rfl⟩ := updatePreview_eq_some updated
  obtain ⟨old, new, first, placed, changed, totals⟩ := total_update? found
  simp only [PreviewRow.reserve, Option.ite_none_right_eq_some, Option.some.injEq] at changed
  obtain ⟨⟨held, free, positive⟩, same⟩ := changed
  have distinct : (previews.map (·.sequence)).Nodup := by
    rw [update?_map found]
    · exact sound.distinct
    · intro row new changed
      simp only [PreviewRow.reserve, Option.ite_none_right_eq_some, Option.some.injEq] at changed
      rw [← changed.2]
  constructor
  · refine { sound with distinct := distinct, idle := ?_, limits := ?_, runs := ?_ }
    · refine update?_forall found (fun _ _ changed idle => ?_) sound.idle
      simp only [PreviewRow.reserve, Option.ite_none_right_eq_some, Option.some.injEq] at changed
      obtain ⟨⟨held, _⟩, rfl⟩ := changed
      exact fun stopped => absurd held.1 stopped
    · intro other member
      rcases List.mem_cons.mp member with rfl | older
      · exact positive
      · exact sound.limits other older
    · intro other member
      rcases List.mem_cons.mp member with rfl | older
      · intro row within numberedSame
        have sequence : row.sequence = new.sequence := by
          rw [numberedSame, ← same]
          exact (beq_iff_eq.mp (List.find?_some first :)).symm
        obtain rfl := List.inj_on_of_nodup_map distinct within placed sequence
        rw [← same]
        exact ⟨Nat.le_of_eq held.2.2.symm, fun _ _ => rfl⟩
      · refine update?_forall found (fun _ _ changed reserved same => ?_) (sound.runs other older)
        simp only [PreviewRow.reserve, Option.ite_none_right_eq_some, Option.some.injEq] at changed
        obtain ⟨⟨held, free, _⟩, rfl⟩ := changed
        obtain ⟨attempt, bytes⟩ := reserved same
        refine ⟨attempt, fun unmoved running => ?_⟩
        -- An earlier run under the same attempt would have left its bytes reserved.
        have limit := bytes unmoved running
        have positive := sound.limits other older
        omega
  · refine weight_le_add ?_ ?_ ?_ ?_
    · rfl
    · rfl
    · exact id
    have change := totals PreviewRow.runningBytes
    have before : old.runningBytes = 0 := by simp [PreviewRow.runningBytes, free]
    have after : new.runningBytes = run.limit := by
      rw [← same]
      simp [PreviewRow.runningBytes, held.1]
    simp only [bytes, previewBytes_eq]
    omega

/-- The charge adds the published bytes to the recorded output. -/
theorem JobRow.charge_storageBytes_le (bytes : Nat) (row : JobRow) :
    (row.charge bytes).storageBytes ≤ row.storageBytes + bytes := by
  have output : (row.charge bytes).outputBytes ≤ row.outputBytes + bytes := by
    have recorded : (row.charge bytes).outputSize.getD 0 = row.outputSize.getD 0 + bytes := rfl
    have reserved : (row.charge bytes).reservedOutputBytes = row.reservedOutputBytes := rfl
    unfold outputBytes
    rw [recorded, reserved]
    by_cases active : row.status ∈ JobStatus.active
    · rw [if_pos active, if_pos (show (row.charge bytes).status ∈ JobStatus.active from active)]
      omega
    · rw [if_neg active, if_neg (show (row.charge bytes).status ∉ JobStatus.active from active)]
  have source : (row.charge bytes).sourceBytes = row.sourceBytes := rfl
  simp only [storageBytes, source]
  omega

/-- A published page takes no more than its request had reserved. -/
theorem JobRecord.publishPreview_sound {run : PreviewRun} {page : ArtifactRow} {now : Timestamp}
    (published : record.publishPreview run page now = some next) (sound : record.Sound maxOutputBytes) :
    next.Sound maxOutputBytes ∧ ∀ quota, next.weight quota ≤ record.weight quota := by
  simp only [publishPreview, Option.bind_eq_bind, Option.bind_eq_some_iff, Option.guard_eq_some',
    exists_const, Option.some.injEq] at published
  obtain ⟨⟨ran, within⟩, mid, updated, inserted, inserting, rfl⟩ := published
  have row : inserted.row = record.job.row := (Job.insertArtifact_frame inserting).1
  have steps : ∀ {row after : PreviewRow},
      (if ∃ expires ∈ row.leaseExpiresAt, expires > now then row.finish run.workerId run.attempt none now
        else none) = some after →
      PreviewStep row after ∧ row.ownedBy run.workerId run.attempt ∧ after.runningBytes = 0 := by
    intro row after changed
    exact PreviewRow.finish_step ((Option.ite_none_right_eq_some ..).mp changed).2
  have midSound := updatePreview_sound updated (fun changed => (steps changed).1) sound
  obtain ⟨previews, found, rfl⟩ := updatePreview_eq_some updated
  constructor
  · exact { midSound with
      reserved := by rw [row]; exact sound.reserved
      live := by rw [row]; exact sound.live
      settled := by rw [row]; exact sound.settled
      rendering := by rw [row]; exact sound.rendering }
  · refine weight_le ?_ ?_ ?_ ?_
    · change inserted.row.userId = _
      rw [row]
    · change inserted.row.serviceAccountId = _
      rw [row]
    · change inserted.row.status ∈ _ → _
      rw [row]
      exact id
    obtain ⟨old, new, first, _, changed, totals⟩ := total_update? found
    obtain ⟨_, held, finished⟩ := steps changed
    have numbered : old.sequence = run.sequence := beq_iff_eq.mp (List.find?_some first :)
    have reserved : old.reservedBytes = run.limit :=
      (sound.runs run ran old (List.mem_of_find?_eq_some first) numbered).bytes held.2.2 held.1
    have before : old.runningBytes = run.limit := by simp [PreviewRow.runningBytes, held.1, reserved]
    have freed := totals PreviewRow.runningBytes
    have charged := record.job.row.charge_storageBytes_le page.size
    simp only [bytes, previewBytes_eq, row]
    change (if record.job.row.status = .deleted then 0 else _) + _ ≤ _
    split <;> omega

end Previews

section Retry

variable {input : RequeueInput} {job : Job}

/-- A requeued job is sound and weighs one more active job with the bytes its output may still grow by. -/
theorem JobRecord.requeueSvg_sound (requeued : record.job.requeueSvg input = some job)
    (reserves : input.reservedBytes = maxOutputBytes) (sound : record.Sound maxOutputBytes) :
    JobRecord.Sound maxOutputBytes { record with job := job } ∧
      ∀ quota, JobRecord.weight quota { record with job := job } ≤ record.weight quota +
        jobGrowth record.job.row.userId record.job.row.serviceAccountId
          (maxOutputBytes - record.job.row.outputSize.getD 0) quota := by
  have ran : JobAction.run maxOutputBytes record.job (.requeueSvg input) = some job := requeued
  have step := JobAction.run_step ran
  obtain ⟨_, _, ended, _, _, rfl⟩ := Job.requeueSvg_cases requeued
  have inactive : record.job.row.status ∉ JobStatus.active := by
    rcases ended with status | status | status <;> simp [status]
  have kept : record.job.row.status ≠ .deleted := by
    rcases ended with status | status | status <;> simp [status]
  refine ⟨{ sound with
    reserved := fun _ => reserves
    live := step.liveUnrendered sound.live
    settled := (step.deletionSettled sound.settled).1
    rendering := fun fence member => step.rendering (sound.rendering fence member) }, fun quota => ?_⟩
  cases quota with
  | storage userId =>
    have source : (Job.requeueRow input record.job.row).sourceBytes = record.job.row.sourceBytes := rfl
    have before : record.job.row.outputBytes = record.job.row.outputSize.getD 0 := if_neg inactive
    have after : (Job.requeueRow input record.job.row).outputBytes =
        max (record.job.row.outputSize.getD 0) maxOutputBytes := by
      rw [← reserves]
      exact if_pos (by simp [Job.requeueRow])
    have unchanged : (Job.requeueRow input record.job.row).userId = record.job.row.userId := rfl
    simp only [weight, jobGrowth, bytes, JobRow.storageBytes, source, before, after, unchanged, if_neg kept,
      previewBytes, if_neg (show (Job.requeueRow input record.job.row).status ≠ .deleted by simp [Job.requeueRow])]
    split <;> omega
  | queue =>
    simp only [weight, jobGrowth]
    split <;> omega
  | userQueue userId =>
    simp only [weight, jobGrowth]
    split
    next now => simp [show record.job.row.userId = userId from now.1]
    next => exact Nat.zero_le _
  | accountQueue serviceAccountId =>
    simp only [weight, jobGrowth]
    split
    next now => simp [show record.job.row.serviceAccountId = serviceAccountId from now.1]
    next => exact Nat.zero_le _

end Retry

/-- A job that was just inserted with the whole output limit reserved. -/
theorem JobRecord.Sound.inserted {row : JobRow} (fresh : row.lifecycle.Fresh)
    (reserved : row.reservedOutputBytes = maxOutputBytes) :
    JobRecord.Sound maxOutputBytes { job := { row := row } } :=
  ⟨fun _ => reserved, fresh.liveUnrendered, fresh.deletionSettled, by simp, by simp, by simp, by simp,
    by simp⟩

end LatexRenderer
