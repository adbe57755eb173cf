import LatexRenderer.Previews.Exclusion

/-! # The output budget of previews

A running preview has room for the bytes it reserved on top of the job's output: no other preview runs,
and no renderer can replace the output, since none is live beside a running preview.
-/

namespace LatexRenderer

open Machine

/-- The output with the bytes of any request is within the limit. -/
structure JobRecord.Budgeted (maxOutputBytes : Nat) (record : JobRecord) : Prop where
  output : record.job.row.outputSize.getD 0 ≤ maxOutputBytes
  reserved : ∀ row ∈ record.previews, record.job.row.outputSize.getD 0 + row.reservedBytes ≤ maxOutputBytes

/-- The bytes that a transaction publishes as a preview. -/
def DatabaseAction.publishedBytes : DatabaseAction → Nat
  | .publishPreview _ _ page _ => page.size
  | _ => 0

/-- The transaction is one of a renderer. -/
def DatabaseAction.ofRenderer : DatabaseAction → Bool
  | .job _ (.worker ..) => true
  | _ => false

variable {limits : Limits} {statement : DatabaseAction} {record new : JobRecord}

/-- A transaction adds to the output what it publishes, except that a renderer of a live job may replace
it. -/
theorem JobRecord.Change.output (change : record.Change limits statement new)
    (sound : record.Sound limits.maxOutputBytes) :
    new.job.row.outputSize.getD 0 = record.job.row.outputSize.getD 0 + statement.publishedBytes ∨
      statement.ofRenderer = true ∧ statement.publishedBytes = 0 ∧ record.job.row.lifecycle.Live ∧
        new.job.row.outputSize.getD 0 ≤ limits.maxOutputBytes := by
  cases change with
  | @acted jobId action _ _ acted =>
    obtain ⟨follows, job, ran, rfl⟩ := act_eq_some acted
    cases action with
    | worker fence operation =>
      rcases (act_output sound follows ran).recorded with same | ⟨live, within⟩
      · exact .inl same
      · exact .inr ⟨rfl, rfl, live, within⟩
    | _ =>
      have kept := (JobAction.run_output_kept ran (follows_retry follows) (by simp)).2
      exact .inl (by rw [kept]; rfl)
  | retried requeued =>
    obtain ⟨_, _, _, _, _, rfl⟩ := Job.requeueSvg_cases requeued
    exact .inl rfl
  | requested requested =>
    obtain ⟨_, eq⟩ := (Option.ite_none_left_eq_some ..).mp requested
    exact .inl (by rw [← Option.some.inj eq]; rfl)
  | requestedAgain updated | claimed updated | recovered updated | failed updated =>
    obtain ⟨_, _, rfl⟩ := updatePreview_eq_some updated
    exact .inl rfl
  | reserved reserved =>
    obtain ⟨_, updated⟩ := (Option.ite_none_right_eq_some ..).mp reserved
    obtain ⟨mid, changed, rfl⟩ := Option.map_eq_some_iff.mp updated
    obtain ⟨_, _, rfl⟩ := updatePreview_eq_some changed
    exact .inl rfl
  | published published =>
    simp only [publishPreview, Option.bind_eq_bind, Option.bind_eq_some_iff, Option.some.injEq] at published
    obtain ⟨_, _, _, _, inserted, inserting, rfl⟩ := published
    refine .inl ?_
    change (inserted.row.charge _).outputSize.getD 0 = _
    rw [(Job.insertArtifact_frame inserting).1]
    rfl

theorem Job.Inserted.outputSize {row : JobRow} (created : Job.Inserted { row := row }) :
    row.outputSize = none := by
  generalize made : ({ row := row } : Job) = job at created
  cases created with
  | reserved input =>
    cases made
    rfl
  | queued input source references inserted queued =>
    cases made
    obtain ⟨_, eq⟩ := (Option.ite_none_right_eq_some ..).mp queued
    rw [← Option.some.inj eq]
  | retry input =>
    cases made
    rfl

/-- A statement other than a reservation reserves nothing more. -/
theorem PreviewRow.Change.reservedBytes_le {row after : PreviewRow} (change : row.Change statement after)
    (unreserved : ∀ jobId run, statement ≠ .reservePreview jobId run) :
    after.reservedBytes ≤ row.reservedBytes := by
  cases change with
  | requestedAgain updated | claimed updated | recovered updated =>
    obtain ⟨_, eq⟩ := (Option.ite_none_right_eq_some ..).mp updated
    rw [← Option.some.inj eq]
  | failed updated | published _ updated =>
    obtain ⟨_, eq⟩ := (Option.ite_none_right_eq_some ..).mp updated
    rw [← Option.some.inj eq]
    exact Nat.zero_le _
  | reserved => exact absurd rfl (unreserved _ _)

/-- A run that publishes holds the request it names, within its lease, and the page it publishes takes no
more than the request has reserved. -/
theorem JobRecord.Change.publishes {jobId : String} {run : PreviewRun} {page : ArtifactRow}
    {now : Timestamp} (change : record.Change limits (.publishPreview jobId run page now) new)
    (sound : record.Sound limits.maxOutputBytes) :
    ∃ before row after rest, record.previews = before ++ row :: rest ∧
      new.previews = before ++ after :: rest ∧ row.sequence = run.sequence ∧
      row.ownedBy run.workerId run.attempt ∧ (∃ expires ∈ row.leaseExpiresAt, expires > now) ∧
      page.size ≤ row.reservedBytes ∧ after.sequence = row.sequence ∧ after.page = row.page ∧
      after.status = .succeeded ∧ after.reservedBytes = 0 := by
  cases change with
  | published published =>
    simp only [publishPreview, Option.bind_eq_bind, Option.bind_eq_some_iff, Option.guard_eq_some',
      exists_const, Option.some.injEq] at published
    obtain ⟨⟨ran, within⟩, mid, updated, inserted, _, rfl⟩ := published
    obtain ⟨previews, found, rfl⟩ := updatePreview_eq_some updated
    obtain ⟨before, row, rest, after, rows, first, changed, next⟩ := update?_eq_some found
    obtain ⟨live, finished⟩ := (Option.ite_none_right_eq_some ..).mp changed
    obtain ⟨held, eq⟩ := (Option.ite_none_right_eq_some ..).mp finished
    have numbered : row.sequence = run.sequence := beq_iff_eq.mp (List.find?_some first :)
    have reserved : row.reservedBytes = run.limit :=
      (sound.runs run ran row (List.mem_of_find?_eq_some first) numbered).bytes held.2.2 held.1
    have fields := Option.some.inj eq
    exact ⟨before, row, after, rest, rows, next, numbered, held, live, by rw [reserved]; exact within,
      by rw [← fields], by rw [← fields], by rw [← fields]; rfl, by rw [← fields]⟩

/-- Beside a running request, no other request of the job runs. -/
private theorem others_idle {before rest : List PreviewRow} {row : PreviewRow}
    (rows : record.previews = before ++ row :: rest) (running : row.status = .running)
    (single : record.previews.countP (·.status == .running) ≤ 1) :
    ∀ other, other ∈ before ∨ other ∈ rest → other.status ≠ .running := by
  intro other member runs
  simp only [rows, List.countP_append, List.countP_cons, running, beq_self_eq_true, if_true] at single
  have counted : 0 < before.countP (·.status == .running) ∨ 0 < rest.countP (·.status == .running) := by
    rcases member with left | right
    · exact .inl (List.countP_pos_iff.mpr ⟨other, left, beq_iff_eq.mpr runs⟩)
    · exact .inr (List.countP_pos_iff.mpr ⟨other, right, beq_iff_eq.mpr runs⟩)
  omega

/-- Every transaction keeps the budget of its job. -/
theorem JobRecord.Change.budgeted (change : record.Change limits statement new)
    (sound : record.Sound limits.maxOutputBytes)
    (single : record.previews.countP (·.status == .running) ≤ 1)
    (quiet : record.job.row.lifecycle.Live → ∀ row ∈ record.previews, row.status ≠ .running)
    (budgeted : record.Budgeted limits.maxOutputBytes) : new.Budgeted limits.maxOutputBytes := by
  have output := change.output sound
  by_cases publishes : ∃ jobId run page now, statement = .publishPreview jobId run page now
  · obtain ⟨jobId, run, page, now, rfl⟩ := publishes
    obtain ⟨before, row, after, rest, rows, next, _, held, _, within, _, _, _, freed⟩ := change.publishes sound
    have idle := others_idle rows held.1 single
    have room := budgeted.reserved row (by simp [rows])
    rcases output with grown | ⟨renders, _⟩
    · change _ = _ + page.size at grown
      refine ⟨by omega, fun other member => ?_⟩
      have none : other.reservedBytes = 0 := by
        rw [next] at member
        rcases List.mem_append.mp member with left | right
        · exact sound.idle other (by simp [rows, left]) (idle other (.inl left))
        · rcases List.mem_cons.mp right with rfl | later
          · exact freed
          · exact sound.idle other (by simp [rows, later]) (idle other (.inr later))
      omega
    · cases renders
  have unpublished : statement.publishedBytes = 0 := by
    cases statement with
    | publishPreview jobId run page now => exact absurd ⟨_, _, _, _, rfl⟩ publishes
    | _ => rfl
  by_cases reserves : ∃ jobId run, statement = .reservePreview jobId run
  · obtain ⟨jobId, run, rfl⟩ := reserves
    cases change with
    | reserved reserved =>
      obtain ⟨⟨_, room⟩, updated⟩ := (Option.ite_none_right_eq_some ..).mp reserved
      obtain ⟨mid, changed, rfl⟩ := Option.map_eq_some_iff.mp updated
      obtain ⟨previews, found, rfl⟩ := updatePreview_eq_some changed
      refine ⟨budgeted.output, update?_forall found (fun _ _ reserving _ => ?_) budgeted.reserved⟩
      obtain ⟨_, eq⟩ := (Option.ite_none_right_eq_some ..).mp reserving
      rw [← Option.some.inj eq]
      exact room
  have kept : ∀ row ∈ new.previews, (∃ old ∈ record.previews, row.reservedBytes ≤ old.reservedBytes) ∨
      row.reservedBytes = 0 := by
    cases change.previews with
    | same _ same => exact fun row member => .inl ⟨row, same ▸ member, Nat.le_refl _⟩
    | cleared _ cleared => simp [cleared]
    | appended _ sequence page timestamp _ _ rows =>
      intro row member
      rw [rows] at member
      rcases List.mem_append.mp member with older | added
      · exact .inl ⟨row, older, Nat.le_refl _⟩
      · rw [List.mem_singleton.mp added]
        exact .inr rfl
    | updated _ _ _ updated changes =>
      refine update?_forall updated (fun within _ changed _ => ?_)
        fun row member => .inl ⟨row, member, Nat.le_refl _⟩
      exact .inl ⟨_, within, (changes changed).reservedBytes_le fun jobId run eq => reserves ⟨jobId, run, eq⟩⟩
  rcases output with same | ⟨_, _, live, within⟩
  · rw [unpublished, Nat.add_zero] at same
    refine ⟨by rw [same]; exact budgeted.output, fun row member => ?_⟩
    rw [same]
    rcases kept row member with ⟨old, older, less⟩ | none
    · exact Nat.le_trans (Nat.add_le_add_left less _) (budgeted.reserved old older)
    · rw [none]
      exact budgeted.output
  · refine ⟨within, fun row member => ?_⟩
    have none : row.reservedBytes = 0 := by
      rcases kept row member with ⟨old, older, less⟩ | none
      · exact Nat.le_zero.mp (Nat.le_trans less (Nat.le_of_eq (sound.idle old older (quiet live old older))))
      · exact none
    rw [none]
    exact within

end LatexRenderer
