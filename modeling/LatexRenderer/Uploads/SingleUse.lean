import Mathlib.Data.List.Nodup
import LatexRenderer.Uploads.Rows

/-! # An upload ticket is used once

Over every interleaving of the requests that present a ticket, the cleanup script and whatever else
writes the ticket's rows: the nonce is consumed at most once, at most one claim is unexpired, a row is
`uploading` only under a claim that can be recovered, a job that has stopped waiting for its upload is
left alone, and a request that lost its claim changes nothing.
-/

namespace LatexRenderer

open Machine

namespace UploadSystem

/-- The invariant of a ticket. -/
structure Sound (s : UploadSystem) : Prop where
  recorded : s.Recorded
  distinct : (s.uploads.map (·.claimOwner)).Nodup
  custody : s.custody.Sound
  guarded : s.uploading → ∃ owner, s.custody.heldBy owner

/-- The request has an unexpired claim: it is not through, and the expiry it set last lies ahead. -/
def claimUnexpired (s : UploadSystem) (upload : Upload) : Prop :=
  upload.ended = false ∧ s.clock < upload.claimUntil

/-- The nonce is claimed, under this owner. -/
def claimedBy (s : UploadSystem) (owner : String) : Prop :=
  ∃ row ∈ s.nonce, row.state = .claimed ∧ row.claimOwner = some owner

/-- The request has claimed the ticket, and the claim was recovered or replaced since. -/
def claimLost (s : UploadSystem) (owner : String) : Prop :=
  owner ∈ s.uploads.map (·.claimOwner) ∧ ¬ s.claimedBy owner

/-- The claim of the request is not running any more at the time the step looks. -/
def claimOver (s : UploadSystem) (owner : String) (action : UploadAction) : Prop :=
  ∀ row ∈ s.nonce, ∀ timestamp ∈ action.timestamp?, ¬ row.claimedBy owner timestamp

/-- The recovery of the claim, from its expiry on, gives the rows back. -/
def Recoverable (maxOutputBytes : Nat) (s : UploadSystem) : Prop :=
  ∃ row ∈ s.nonce, row.state = .claimed ∧ ∃ owner expires,
    row.claimOwner = some owner ∧ row.claimExpiresAt = some expires ∧
    ∀ now, expires ≤ now → ∃ next,
      s.recoverStaleUpload maxOutputBytes owner now = some next ∧ ¬ next.uploading

/-- The job does not wait for its upload: it is queued or further, or it was canceled or has expired. -/
def jobSettled (s : UploadSystem) : Prop :=
  ∀ job ∈ s.job, job.row.status ∉ [.reserved, .uploading]

variable {s t : UploadSystem} {owner : String} {maxOutputBytes : Nat}

theorem custody_held_iff {expires : ℕ} :
    s.custody.token = .held owner expires ↔ ∃ row ∈ s.nonce, row.token = .held owner expires := by
  cases present : s.nonce with
  | none => simp [custody, present]
  | some row => simp [custody, present]

theorem Recorded.claimedBy_iff (recorded : s.Recorded) :
    s.claimedBy owner ↔ s.custody.heldBy owner := by
  constructor
  · rintro ⟨row, present, claimed, named⟩
    obtain ⟨owner', expires, named', _, held⟩ := (recorded row present).token claimed
    have same : owner' = owner := Option.some.inj (named'.symm.trans named)
    exact ⟨expires, custody_held_iff.mpr ⟨row, present, same ▸ held⟩⟩
  · rintro ⟨expires, held⟩
    obtain ⟨row, present, held⟩ := custody_held_iff.mp held
    exact ⟨row, present, NonceRow.claimed_of_token held⟩

theorem mem_drawn : owner ∈ s.custody.drawn ↔ owner ∈ s.uploads.map (·.claimOwner) := by
  simp [custody]

theorem custody_unexpired (distinct : (s.uploads.map (·.claimOwner)).Nodup) {upload : Upload}
    (member : upload ∈ s.uploads) (unexpired : s.claimUnexpired upload) :
    s.custody.unexpired upload.claimOwner := by
  have found : s.uploads.find? (·.claimOwner == upload.claimOwner) = some upload := by
    obtain ⟨before, after, split⟩ := List.append_of_mem member
    refine List.find?_eq_some_iff_append.mpr ⟨by simp, before, after, split, fun row early => ?_⟩
    rw [split, List.map_append, List.map_cons] at distinct
    have apart := (List.nodup_append.mp distinct).2.2 _ (List.mem_map_of_mem early) _ List.mem_cons_self
    simpa using apart
  exact ⟨upload.claimUntil, by simp [custody, found, remembered, unexpired.1], unexpired.2⟩

theorem Sound.issued (issued : s.Issued) : s.Sound := by
  cases issued <;>
    refine ⟨by rintro row ⟨⟩; exact nofun, List.nodup_nil, ⟨nofun, ?_⟩, ?_⟩
  all_goals first
    | (rintro owner ⟨_, held⟩; cases held)
    | rintro (⟨_, ⟨⟩, status⟩ | ⟨_, ⟨⟩, status⟩) <;> cases status

end UploadSystem

namespace UploadAction

open UploadSystem

/-- The step consumes the nonce. -/
def consumes : UploadAction → Bool
  | .finishUpload .. => true
  | _ => false

/-- The step is one on the ticket and not another statement on its job. -/
def onTicket : UploadAction → Bool
  | .job _ => false
  | _ => true

variable {s t : UploadSystem} {owner : String} {maxOutputBytes : Nat} {action : UploadAction}

theorem step_recorded (taken : action.step maxOutputBytes s = some t) (recorded : s.Recorded) :
    t.Recorded := by
  obtain ⟨_, ran⟩ := (Option.ite_none_right_eq_some ..).mp taken
  cases action with
  | beginUpload =>
    obtain ⟨_, _, _, _, _, _, claimed, _, _, rfl⟩ := beginUpload_cases ran
    rintro row ⟨⟩
    exact (NonceRow.claimNonce_token claimed).2.2
  | extendClaim =>
    rcases extendClaim_cases ran with ⟨_, _, _, moved, updated⟩ | ⟨_, updated⟩
    · rw [(updateUpload_frame (keeps_extend _) updated).1]
      rintro row ⟨⟩
      exact (NonceRow.extendNonceClaim_token moved).2.2
    · rw [(updateUpload_frame keeps_lose updated).1]
      exact recorded
  | finishUpload =>
    obtain ⟨_, _, _, _, _, _, _, consumed, _, _, rfl⟩ := finishUpload_cases ran
    rintro row ⟨⟩
    exact (NonceRow.consumeNonce_token consumed).2.2
  | releaseUpload =>
    obtain ⟨_, through, ⟨_, _, _, moved, rfl⟩ | ⟨_, rfl⟩⟩ := releaseUpload_cases ran
    · rintro row ⟨⟩
      exact (NonceRow.releaseNonce_token moved).2.2
    · rw [(updateUpload_frame keeps_finish through).1]
      exact recorded
  | recoverStaleUpload =>
    obtain ⟨row, _, present, released, rfl⟩ := recoverStaleUpload_cases ran
    rintro _ ⟨⟩
    exact (NonceRow.recoverClaim_token (recorded row present) released).2.2
  | expireNonce =>
    simp only [run, Option.bind_eq_bind, Option.bind_eq_some_iff, Option.some.injEq] at ran
    obtain ⟨_, ⟨_, _, expired⟩, rfl⟩ := ran
    rintro row ⟨⟩
    exact (NonceRow.expireNonce_token expired).2.2
  | deleteNonce =>
    obtain ⟨_, eq⟩ := (Option.ite_none_right_eq_some ..).mp ran
    rw [← Option.some.inj eq]
    rintro row ⟨⟩
  | advance =>
    obtain ⟨_, eq⟩ := (Option.ite_none_right_eq_some ..).mp ran
    rw [← Option.some.inj eq]
    exact recorded
  | expireJob | expireSource =>
    simp only [run, Option.bind_eq_bind, Option.bind_eq_some_iff, Option.some.injEq] at ran
    obtain ⟨_, _, rfl⟩ := ran
    exact recorded
  | job | source =>
    simp only [run, Option.bind_eq_bind, Option.ite_none_right_eq_some, Option.bind_eq_some_iff,
      Option.some.injEq] at ran
    obtain ⟨_, _, _, rfl⟩ := ran
    exact recorded

/-- Claim owners are drawn once: a step keeps those drawn, and an upload adds a new one. -/
theorem step_owners (taken : action.step maxOutputBytes s = some t) :
    t.uploads.map (·.claimOwner) = s.uploads.map (·.claimOwner) ∨
      ∃ owner, owner ∉ s.uploads.map (·.claimOwner) ∧
        t.uploads.map (·.claimOwner) = s.uploads.map (·.claimOwner) ++ [owner] := by
  obtain ⟨_, ran⟩ := (Option.ite_none_right_eq_some ..).mp taken
  cases action with
  | beginUpload owner =>
    obtain ⟨fresh, _, _, _, _, _, _, _, _, rfl⟩ := beginUpload_cases ran
    exact .inr ⟨owner, by simpa using fresh, by simp⟩
  | extendClaim =>
    rcases extendClaim_cases ran with ⟨_, _, _, _, updated⟩ | ⟨_, updated⟩
    · exact .inl (updateUpload_frame (keeps_extend _) updated).2
    · exact .inl (updateUpload_frame keeps_lose updated).2
  | finishUpload =>
    obtain ⟨_, _, _, _, _, through, _, _, _, _, rfl⟩ := finishUpload_cases ran
    exact .inl (updateUpload_frame keeps_finish through).2
  | releaseUpload =>
    obtain ⟨_, through, ⟨_, _, _, _, rfl⟩ | ⟨_, rfl⟩⟩ := releaseUpload_cases ran <;>
      exact .inl (updateUpload_frame keeps_finish through).2
  | recoverStaleUpload =>
    obtain ⟨_, _, _, _, rfl⟩ := recoverStaleUpload_cases ran
    exact .inl rfl
  | deleteNonce | advance =>
    obtain ⟨_, eq⟩ := (Option.ite_none_right_eq_some ..).mp ran
    rw [← Option.some.inj eq]
    exact .inl rfl
  | expireNonce | expireJob | expireSource =>
    simp only [run, Option.bind_eq_bind, Option.bind_eq_some_iff, Option.some.injEq] at ran
    obtain ⟨_, _, rfl⟩ := ran
    exact .inl rfl
  | job | source =>
    simp only [run, Option.bind_eq_bind, Option.ite_none_right_eq_some, Option.bind_eq_some_iff,
      Option.some.injEq] at ran
    obtain ⟨_, _, _, rfl⟩ := ran
    exact .inl rfl

/-- A row is uploading only while somebody holds the token. -/
theorem step_guarded (taken : action.step maxOutputBytes s = some t)
    (guarded : s.uploading → ∃ owner, s.custody.heldBy owner) :
    t.uploading → ∃ owner, t.custody.heldBy owner := by
  obtain ⟨_, ran⟩ := (Option.ite_none_right_eq_some ..).mp taken
  cases action with
  | beginUpload owner =>
    obtain ⟨_, _, _, _, _, _, claimed, _, _, rfl⟩ := beginUpload_cases ran
    exact fun _ => ⟨owner, _, (NonceRow.claimNonce_token claimed).2.1⟩
  | extendClaim owner =>
    rcases extendClaim_cases ran with ⟨_, _, _, moved, updated⟩ | ⟨_, updated⟩
    · rw [(updateUpload_frame (keeps_extend _) updated).1]
      exact fun _ => ⟨owner, _, (NonceRow.extendNonceClaim_token moved).2.1⟩
    · rw [(updateUpload_frame keeps_lose updated).1]
      exact guarded
  | finishUpload =>
    obtain ⟨_, _, _, _, _, _, _, _, moved, queued, rfl⟩ := finishUpload_cases ran
    rintro (⟨job, present, uploading⟩ | ⟨source, present, uploading⟩)
    · obtain ⟨_, _, finished⟩ := mapM_mem queued present
      cases (JobAction.uploadFinished_status finished).2.symm.trans uploading
    · obtain ⟨_, _, finished⟩ := mapM_mem moved present
      cases (SourceRow.transition_status finished).2.symm.trans uploading
  | releaseUpload =>
    obtain ⟨_, through, ⟨_, _, _, _, rfl⟩ | ⟨_, rfl⟩⟩ := releaseUpload_cases ran
    · exact fun uploading => absurd uploading (restoreRows_not_uploading _)
    · rw [(updateUpload_frame keeps_finish through).1]
      exact guarded
  | recoverStaleUpload =>
    obtain ⟨_, _, _, _, rfl⟩ := recoverStaleUpload_cases ran
    exact fun uploading => absurd uploading (restoreRows_not_uploading _)
  | expireNonce =>
    simp only [run, Option.bind_eq_bind, Option.bind_eq_some_iff, Option.some.injEq] at ran
    obtain ⟨_, ⟨_, present, expired⟩, rfl⟩ := ran
    intro uploading
    obtain ⟨owner, held⟩ := guarded uploading
    exact absurd held (not_heldBy present (by simp [(NonceRow.expireNonce_token expired).1]) owner)
  | deleteNonce =>
    obtain ⟨gone, eq⟩ := (Option.ite_none_right_eq_some ..).mp ran
    obtain ⟨_, present, deletable⟩ := (Option.any_eq_true ..).mp gone
    rw [← Option.some.inj eq]
    intro uploading
    obtain ⟨owner, held⟩ := guarded uploading
    exact absurd held (not_heldBy present (NonceRow.deletable_token deletable) owner)
  | advance =>
    obtain ⟨_, eq⟩ := (Option.ite_none_right_eq_some ..).mp ran
    rw [← Option.some.inj eq]
    exact guarded
  | expireJob =>
    simp only [run, Option.bind_eq_bind, Option.bind_eq_some_iff, Option.some.injEq] at ran
    obtain ⟨_, ⟨_, _, expired⟩, rfl⟩ := ran
    rintro (⟨_, ⟨⟩, uploading⟩ | source)
    · cases (JobAction.expireReservation_status expired).2.symm.trans uploading
    · exact guarded (.inr source)
  | expireSource =>
    simp only [run, Option.bind_eq_bind, Option.bind_eq_some_iff, Option.some.injEq] at ran
    obtain ⟨_, ⟨_, _, expired⟩, rfl⟩ := ran
    rintro (job | ⟨_, ⟨⟩, uploading⟩)
    · exact guarded (.inl job)
    · obtain ⟨_, eq⟩ := (Option.ite_none_right_eq_some ..).mp expired
      rw [← Option.some.inj eq] at uploading
      cases uploading
  | job =>
    simp only [run, Option.bind_eq_bind, Option.ite_none_right_eq_some, Option.bind_eq_some_iff,
      Option.some.injEq] at ran
    obtain ⟨other, _, ⟨job, present, acted⟩, rfl⟩ := ran
    rintro (⟨_, ⟨⟩, uploading⟩ | source)
    · have before := JobAction.waiting_before other acted (by simp [uploading])
      exact guarded (.inl ⟨job, present, before.trans uploading⟩)
    · exact guarded (.inr source)
  | source =>
    simp only [run, Option.bind_eq_bind, Option.ite_none_right_eq_some, Option.bind_eq_some_iff,
      Option.some.injEq] at ran
    obtain ⟨other, _, ⟨source, present, acted⟩, rfl⟩ := ran
    rintro (job | ⟨_, ⟨⟩, uploading⟩)
    · exact guarded (.inl job)
    · exact guarded (.inr ⟨source, present, SourceAction.uploading_before other acted uploading⟩)

theorem step_sound (taken : action.step maxOutputBytes s = some t) (sound : s.Sound) : t.Sound where
  recorded := step_recorded taken sound.recorded
  distinct := by
    rcases step_owners taken with same | ⟨owner, fresh, grown⟩
    · rw [same]
      exact sound.distinct
    · rw [grown]
      refine List.nodup_append.mpr ⟨sound.distinct, List.nodup_singleton owner, ?_⟩
      rintro other known _ new rfl
      exact fresh (List.mem_singleton.mp new ▸ known)
  custody := by
    obtain ⟨event, _, moved⟩ := step_custody sound.recorded taken
    cases event with
    | none => exact moved ▸ sound.custody
    | some event => exact Custody.Step.sound moved sound.custody
  guarded := step_guarded taken sound.guarded

/-- The steps on a ticket leave a job alone that does not wait for its upload. -/
theorem step_job (taken : action.step maxOutputBytes s = some t) (settled : jobSettled s)
    (ticket : action.onTicket = true) : t.job = s.job := by
  obtain ⟨_, ran⟩ := (Option.ite_none_right_eq_some ..).mp taken
  have moved {change : Job → Option Job} {after : Option Job} (mapped : s.job.mapM change = some after)
      (waits : ∀ {job next}, change job = some next → job.row.status ∈ [.reserved, .uploading]) :
      after = s.job := by
    cases present : s.job with
    | none =>
      rw [present] at mapped
      exact (Option.some.inj mapped).symm
    | some job =>
      rw [present] at mapped
      obtain ⟨next, changed, _⟩ := Option.map_eq_some_iff.mp mapped
      exact absurd (waits changed) (settled job present)
  have restored (rows : UploadSystem) (same : rows.job = s.job) (timestamp : Timestamp) :
      (rows.restoreRows maxOutputBytes timestamp).job = s.job := by
    cases present : s.job with
    | none => simp [restoreRows, same, present]
    | some job =>
      have other : job.row.status ≠ .uploading := fun uploading =>
        settled job present (by simp [uploading])
      simp [restoreRows, same, present, JobAction.uploadFailed_of_ne other]
  cases action with
  | beginUpload =>
    obtain ⟨_, _, _, _, _, _, _, started, _, rfl⟩ := beginUpload_cases ran
    exact moved started fun ran => by simp [(JobAction.uploadStarted_status ran).1]
  | extendClaim =>
    rcases extendClaim_cases ran with ⟨_, _, _, _, updated⟩ | ⟨_, updated⟩
    · rw [(updateUpload_frame (keeps_extend _) updated).1]
    · rw [(updateUpload_frame keeps_lose updated).1]
  | finishUpload =>
    obtain ⟨_, _, _, _, _, _, _, _, _, queued, rfl⟩ := finishUpload_cases ran
    exact moved queued fun ran => by simp [(JobAction.uploadFinished_status ran).1]
  | releaseUpload =>
    obtain ⟨_, through, ⟨_, _, _, _, rfl⟩ | ⟨_, rfl⟩⟩ := releaseUpload_cases ran
    · exact restored _ (by rw [(updateUpload_frame keeps_finish through).1]) _
    · rw [(updateUpload_frame keeps_finish through).1]
  | recoverStaleUpload =>
    obtain ⟨_, _, _, _, rfl⟩ := recoverStaleUpload_cases ran
    exact restored _ rfl _
  | expireJob =>
    simp only [run, Option.bind_eq_bind, Option.bind_eq_some_iff, Option.some.injEq] at ran
    obtain ⟨_, ⟨job, present, expired⟩, rfl⟩ := ran
    exact absurd (JobAction.expireReservation_status expired).1 (settled job present)
  | deleteNonce | advance =>
    obtain ⟨_, eq⟩ := (Option.ite_none_right_eq_some ..).mp ran
    rw [← Option.some.inj eq]
  | expireNonce | expireSource =>
    simp only [run, Option.bind_eq_bind, Option.bind_eq_some_iff, Option.some.injEq] at ran
    obtain ⟨_, _, rfl⟩ := ran
    rfl
  | job => cases ticket
  | source =>
    simp only [run, Option.bind_eq_bind, Option.ite_none_right_eq_some, Option.bind_eq_some_iff,
      Option.some.injEq] at ran
    obtain ⟨_, _, _, rfl⟩ := ran
    rfl

/-- A job that does not wait for its upload never waits for it again. -/
theorem step_settled (taken : action.step maxOutputBytes s = some t) (settled : jobSettled s) :
    jobSettled t := by
  by_cases ticket : action.onTicket = true
  · intro job present
    exact settled job ((step_job taken settled ticket).symm ▸ present)
  · obtain ⟨_, ran⟩ := (Option.ite_none_right_eq_some ..).mp taken
    cases action with
    | job =>
      simp only [run, Option.bind_eq_bind, Option.ite_none_right_eq_some, Option.bind_eq_some_iff,
        Option.some.injEq] at ran
      obtain ⟨other, _, ⟨job, present, acted⟩, rfl⟩ := ran
      rintro _ ⟨⟩ waiting
      have before := JobAction.waiting_before other acted waiting
      exact settled job present (before ▸ waiting)
    | _ => exact absurd rfl ticket

/-- A request whose claim is not running changes none of the ticket's rows. -/
theorem step_durable (taken : action.step maxOutputBytes s = some t)
    (uploader : action.uploader? = some owner) (past : s.claimOver owner action) :
    t.durable = s.durable := by
  obtain ⟨_, ran⟩ := (Option.ite_none_right_eq_some ..).mp taken
  cases action with
  | extendClaim =>
    cases uploader
    rcases extendClaim_cases ran with ⟨row, _, present, moved, _⟩ | ⟨_, updated⟩
    · exact absurd (NonceRow.extendNonceClaim_token moved).1 (past row present _ rfl)
    · rw [(updateUpload_frame keeps_lose updated).1]
      rfl
  | finishUpload =>
    cases uploader
    obtain ⟨_, row, _, _, _, _, present, consumed, _⟩ := finishUpload_cases ran
    exact absurd (NonceRow.consumeNonce_token consumed).1 (past row present _ rfl)
  | releaseUpload =>
    cases uploader
    obtain ⟨_, through, ⟨row, _, present, moved, _⟩ | ⟨_, rfl⟩⟩ := releaseUpload_cases ran
    · exact absurd (NonceRow.releaseNonce_token moved).1 (past row present _ rfl)
    · rw [(updateUpload_frame keeps_finish through).1]
      rfl
  | _ => cases uploader

end UploadAction

section SingleUse

variable {maxOutputBytes : Nat} {s t : UploadSystem} {actions : List UploadAction} {owner : String}

theorem sound_of_issued (reached : Reachable (uploadMachine maxOutputBytes) s) : s.Sound := by
  refine reached.induction UploadSystem.Sound.issued ?_
  intro before action next _ taken sound
  exact UploadAction.step_sound taken sound

/-- What a request that has lost its claim knows from then on. -/
private theorem lost_run (reached : Reachable (uploadMachine maxOutputBytes) s)
    (run : Run (uploadMachine maxOutputBytes) s actions t) (lost : s.claimLost owner) :
    t.claimLost owner := by
  have sound := sound_of_issued reached
  have start : owner ∈ s.custody.drawn ∧ ¬ s.custody.heldBy owner :=
    ⟨UploadSystem.mem_drawn.mpr lost.1, fun held => lost.2 (sound.recorded.claimedBy_iff.mpr held)⟩
  have after : owner ∈ t.custody.drawn ∧ ¬ t.custody.heldBy owner := by
    refine run.stable (P := fun s => owner ∈ s.custody.drawn ∧ ¬ s.custody.heldBy owner) reached ?_ start
    intro before action next reachedBefore taken held
    obtain ⟨event, _, moved⟩ := UploadAction.step_custody (sound_of_issued reachedBefore).recorded taken
    cases event with
    | none => exact moved ▸ held
    | some event => exact Custody.Step.lost moved held.1 held.2
  have ended := sound_of_issued (run.reachable reached)
  exact ⟨UploadSystem.mem_drawn.mp after.1, fun held => after.2 (ended.recorded.claimedBy_iff.mp held)⟩

/-- A run consumes the nonce at most once: a consumed or retired token is never spent again. -/
private theorem consumes_count_le_one (reached : Reachable (uploadMachine maxOutputBytes) s)
    (run : Run (uploadMachine maxOutputBytes) s actions t) :
    actions.countP UploadAction.consumes ≤ 1 := by
  have spends {before : UploadSystem} {action : UploadAction} {next : UploadSystem}
      (taken : (uploadMachine maxOutputBytes).Step before action next)
      (consumes : action.consumes = true) :
      ∃ owner, Custody.Step before.custody (.spend owner) next.custody := by
    cases action with
    | finishUpload owner =>
      obtain ⟨_, ran⟩ := (Option.ite_none_right_eq_some ..).mp taken
      exact ⟨owner, UploadSystem.finishUpload_custody ran⟩
    | _ => cases consumes
  refine run.count_le_one UploadSystem.Recorded (fun s => s.custody.Closed)
    UploadAction.step_recorded ?_ ?_ ?_ (sound_of_issued reached).recorded
  · intro before action next _ taken consumes
    obtain ⟨_, spent⟩ := spends taken consumes
    exact spent.not_closed
  · intro before action next recorded taken closed
    obtain ⟨event, _, moved⟩ := UploadAction.step_custody recorded taken
    cases event with
    | none => exact moved ▸ closed
    | some event => exact Custody.Step.closed moved closed
  · intro before action next _ taken consumes
    obtain ⟨_, spent⟩ := spends taken consumes
    exact spent.closes

/-- A row that is uploading can be recovered once its claim has run out. -/
private theorem recoverable_of_uploading (sound : t.Sound) (uploading : t.uploading) :
    t.Recoverable maxOutputBytes := by
  obtain ⟨owner, held⟩ := sound.guarded uploading
  obtain ⟨row, present, claimed, _⟩ := sound.recorded.claimedBy_iff.mpr held
  obtain ⟨owner, expires, named, set, _⟩ := (sound.recorded row present).token claimed
  refine ⟨row, present, claimed, owner, expires, named, set, fun now past => ?_⟩
  have stale : row.claimStale now := by
    refine ⟨claimed, fun later found => ?_⟩
    rw [set] at found
    exact Option.some.inj found ▸ past
  have recovers : ∃ nonce, row.recoverClaim owner now = some nonce :=
    ⟨_, if_pos ⟨stale, named⟩⟩
  obtain ⟨nonce, recovers⟩ := recovers
  refine ⟨({ t with nonce := some nonce } : UploadSystem).restoreRows maxOutputBytes now, ?_,
    UploadSystem.restoreRows_not_uploading now⟩
  simp [UploadSystem.recoverStaleUpload, Option.mem_def.mp present, recovers]

/-- The single-use upload ticket. For every state of a ticket and every run from there: the nonce is
consumed at most once; at most one request has an unexpired claim; while a row is uploading the nonce is
claimed and the recovery of the claim frees the rows; no step on the ticket touches a job that has
stopped waiting for its upload; and a request whose claim was lost, or has run out, changes no row. -/
theorem upload_ticket_single_use (maxOutputBytes : Nat) {s t : UploadSystem}
    {actions : List UploadAction} (reached : Reachable (uploadMachine maxOutputBytes) s)
    (run : Run (uploadMachine maxOutputBytes) s actions t) :
    actions.countP UploadAction.consumes ≤ 1 ∧
    (∀ first ∈ t.uploads, ∀ second ∈ t.uploads,
      t.claimUnexpired first → t.claimUnexpired second → first = second) ∧
    (t.uploading → t.Recoverable maxOutputBytes) ∧
    (s.jobSettled → ∀ action next, (uploadMachine maxOutputBytes).Step t action next →
      action.onTicket = true → next.job = t.job) ∧
    (∀ owner action next, (uploadMachine maxOutputBytes).Step t action next →
      action.uploader? = some owner → s.claimLost owner ∨ t.claimOver owner action →
      next.durable = t.durable) := by
  have sound := sound_of_issued (run.reachable reached)
  refine ⟨consumes_count_le_one reached run, ?_, recoverable_of_uploading sound, ?_, ?_⟩
  · intro first inFirst second inSecond unexpired also
    have same := sound.custody.unique (UploadSystem.custody_unexpired sound.distinct inFirst unexpired)
      (UploadSystem.custody_unexpired sound.distinct inSecond also)
    exact List.inj_on_of_nodup_map sound.distinct inFirst inSecond same
  · intro settled action next taken ticket
    have still := run.preserves (P := UploadSystem.jobSettled)
      (fun _ taken settled => UploadAction.step_settled taken settled) settled
    exact UploadAction.step_job taken still ticket
  · intro owner action next taken uploader lost
    refine UploadAction.step_durable taken uploader ?_
    rcases lost with lost | past
    · have lostNow := lost_run reached run lost
      exact fun row present timestamp _ claimed => lostNow.2 ⟨row, present, claimed.1, claimed.2.1⟩
    · exact past

/-- A ticket for the upload of a job, as it was issued. -/
def exampleIssued : UploadSystem where
  clock := 0
  nonce := some (.insertNonce "nonce_1" 600)
  job := some { row := insertReserved exampleTicket }
  source := none

/-- The first request stalls past its claim, and the cleanup script recovers it. -/
def exampleStall : List UploadAction :=
  [.advance 10, .beginUpload "upload_1" 10 130 10, .advance 140, .recoverStaleUpload "upload_1" 140]

/-- A second request holds the ticket, and the first, which had stalled, can change no row any more. -/
theorem upload_ticket_single_use_stalled :
    ∃ s t : UploadSystem, s.claimLost "upload_1" ∧ t.uploading ∧ t.Recoverable 10 ∧
      ∀ action next, (uploadMachine 10).Step t action next → action.uploader? = some "upload_1" →
        next.durable = t.durable := by
  let second := UploadAction.beginUpload "upload_2" 140 260 140
  have replayed : (replay? (UploadAction.step 10) exampleIssued exampleStall).any (fun s =>
      s.uploads.any (·.claimOwner == "upload_1") && s.nonce.all (·.state == .released) &&
        (second.step 10 s).any fun t => t.job.any (·.row.status == .uploading)) = true := by decide
  obtain ⟨s, stalled, check⟩ : ∃ s, Run (uploadMachine 10) exampleIssued exampleStall s ∧ _ :=
    exists_run_of_replay? replayed
  simp only [Bool.and_eq_true, Option.any_eq_true, Option.all_eq_true, List.any_eq_true, beq_iff_eq]
    at check
  obtain ⟨⟨⟨upload, known, first⟩, free⟩, t, taken, job, present, uploading⟩ := check
  have lost : s.claimLost "upload_1" := by
    refine ⟨List.mem_map.mpr ⟨upload, known, first⟩, ?_⟩
    rintro ⟨row, held, claimed, _⟩
    cases (free row held).symm.trans claimed
  have issued : exampleIssued.Issued := .legacyJob 0 "nonce_1" 600 exampleTicket rfl
  have single := upload_ticket_single_use 10 ⟨exampleIssued, _, issued, stalled⟩ (.single taken)
  have uploads : t.uploading := .inl ⟨job, present, uploading⟩
  exact ⟨s, t, lost, uploads, single.2.2.1 uploads, fun action next later uploader =>
    single.2.2.2.2 "upload_1" action next later uploader (.inl lost)⟩

end SingleUse

end LatexRenderer
