import LatexRenderer.Model.Deploy.QuiescedRecovery

/-! # What the steps of a quiesced recovery keep

A command only ever sees the host after its jobs went on for a while; `Idles` says what that changes.
`Named` is the invariant between the commands: the point of a deployment that was begun and is neither
completed nor acknowledged exists and is named by a journal that outlives a power loss.
-/

namespace LatexRenderer

open Machine

namespace RecoveryHost

/-- A host after its jobs went on: only jobs have come or gone, and none has come without a timer. -/
structure Idles (s t : RecoveryHost) : Prop where
  journal : t.journal = s.journal
  points : t.points = s.points
  deployment : t.deployment = s.deployment
  others : ∀ unit, unit ∉ RecoveryUnit.maintenance → t.active unit = s.active unit
  jobs : (∀ timer ∈ RecoveryUnit.timers, s.active timer = false) →
    ∀ unit ∈ RecoveryUnit.maintenance, s.active unit = false → t.active unit = false

theorem idles_refl (s : RecoveryHost) : s.Idles s :=
  ⟨rfl, rfl, rfl, fun _ _ => rfl, fun _ _ _ idle => idle⟩

theorem idles_jobs (s : RecoveryHost) (running : RecoveryUnit → Bool) : s.Idles (s.jobs running) := by
  refine ⟨rfl, rfl, rfl, fun unit other => if_neg other, fun quiet unit job idle => ?_⟩
  have none : RecoveryUnit.timers.any s.active = false := by
    rw [List.any_eq_false]
    intro timer member
    simp [quiet timer member]
  simp [RecoveryHost.jobs, job, idle, none]

theorem timer_not_job {unit : RecoveryUnit} (timer : unit ∈ RecoveryUnit.timers) :
    unit ∉ RecoveryUnit.maintenance := by
  revert unit
  decide

theorem unit_not_job {unit : RecoveryUnit} (known : unit ∈ RecoveryUnit.units) :
    unit ∉ RecoveryUnit.maintenance := by
  revert unit
  decide

theorem Idles.trans {s t u : RecoveryHost} (first : s.Idles t) (second : t.Idles u) : s.Idles u := by
  refine ⟨second.journal.trans first.journal, second.points.trans first.points,
    second.deployment.trans first.deployment,
    fun unit other => (second.others unit other).trans (first.others unit other), fun quiet unit job idle => ?_⟩
  refine second.jobs (fun timer member => ?_) unit job (first.jobs quiet unit job idle)
  rw [first.others timer (timer_not_job member)]
  exact quiet timer member

/-- The invariant between the commands. -/
def Named (s : RecoveryHost) : Prop :=
  ∀ id, s.deployment = some id →
    id ∈ s.points ∧ ∃ journal, s.journal = .settled (some journal) ∧ journal.pointId = some id

/-- The units of a host may come and go. -/
structure Kept (s t : RecoveryHost) : Prop where
  journal : t.journal = s.journal
  points : t.points = s.points
  deployment : t.deployment = s.deployment

theorem Idles.kept {s t : RecoveryHost} (idles : s.Idles t) : s.Kept t :=
  ⟨idles.journal, idles.points, idles.deployment⟩

theorem Kept.trans {s t u : RecoveryHost} (first : s.Kept t) (second : t.Kept u) : s.Kept u :=
  ⟨second.journal.trans first.journal, second.points.trans first.points,
    second.deployment.trans first.deployment⟩

theorem Named.kept {s t : RecoveryHost} (named : s.Named) (kept : s.Kept t) : t.Named := by
  intro id deployed
  obtain ⟨there, journal, settled, names⟩ := named id (kept.deployment ▸ deployed)
  exact ⟨kept.points ▸ there, journal, kept.journal ▸ settled, names⟩

/-- Without a deployment there is nothing to name. -/
theorem named_of_none {s : RecoveryHost} (closed : s.deployment = none) : s.Named := by
  intro id deployed
  cases closed.symm.trans deployed

/-- No deployment is open where no journal is seen, or where it names no point. -/
theorem Named.deployment_eq_none {s : RecoveryHost} (named : s.Named)
    (unnamed : ∀ journal, s.journal.visible = some journal → journal.pointId = none) :
    s.deployment = none := by
  cases deployed : s.deployment with
  | none => rfl
  | some id =>
    obtain ⟨_, journal, settled, names⟩ := named id deployed
    have missing := unnamed journal (by rw [settled]; rfl)
    rw [missing] at names
    cases names

/-- Timers, jobs and writers are stopped. -/
def Quiet (s : RecoveryHost) : Prop :=
  ∀ unit ∈ RecoveryUnit.timers ++ RecoveryUnit.maintenance ++ RecoveryUnit.writers, s.active unit = false

theorem Quiet.idles {s t : RecoveryHost} (quiet : s.Quiet) (idles : s.Idles t) : t.Quiet := by
  intro unit member
  by_cases job : unit ∈ RecoveryUnit.maintenance
  · exact idles.jobs (fun timer listed => quiet timer (by simp [listed])) unit job (quiet unit member)
  · rw [idles.others unit job]
    exact quiet unit member

/-- The units of a journal that is seen are active. -/
def Restored (s : RecoveryHost) : Prop :=
  ∀ journal, s.journal.visible = some journal → ∀ unit ∈ journal.units, s.active unit = true

end RecoveryHost

/-- What the steps of a recovery need. A unit is started when the journal lists it, and stopped under a
durable journal that lists it if it is active. The journal is written over no journal, with the active
units, or to name its point; it is removed over active units. -/
def RecoverySite.Needs : RecoverySite → RecoveryHost → Prop
  | .start unit, s => ∃ journal, s.journal.visible = some journal ∧ unit ∈ journal.units
  | .stop unit, s => ∃ journal, s.journal = .settled (some journal) ∧
      (s.active unit = true → unit ∈ journal.units)
  | .renameJournal value, s => s.deployment = none ∧
      (s.journal.visible = none ∧ value.units = RecoveryUnit.units.filter s.active ∧ value.pointId = none ∨
        ∃ journal, s.journal.visible = some journal ∧ journal.pointId = none ∧
          value = { journal with pointId := value.pointId })
  | .beginAction id, s => s.Quiet ∧ s.deployment = none ∧ id ∈ s.points ∧
      ∃ journal, s.journal = .settled (some journal) ∧ journal.pointId = some id
  | .action id, s => s.Quiet ∧ s.deployment = some id
  | .complete id, s => s.deployment = some id
  | .unlinkJournal removal, s => s.Restored ∧
      match removal with
      | .acknowledge id => ∀ journal, s.journal.visible = some journal → journal.pointId = some id
      | .previous | .finished => s.deployment = none
  | .collect _, s => s.deployment = none
  | .create, s => s.deployment = none
  | _, _ => True

/-- The condition at a step. -/
def RecoverySite.Meets (site : RecoverySite) (s : RecoveryHost) : Prop :=
  s.Named ∧ site.Needs s

/-- The error is not one of a restoration. -/
def RecoveryError.Plain (error : RecoveryError) : Prop :=
  ∀ units, error ≠ .couldNotRestore units

/-- An error of a restoration leaves the journal, and names every unit that is not active again. -/
def RecoveryError.Reported (error : RecoveryError) (s : RecoveryHost) : Prop :=
  ∀ units, error = .couldNotRestore units → ∃ journal, s.journal.visible = some journal ∧
    ∀ unit ∈ journal.units, s.active unit = true ∨ unit ∈ units

theorem RecoveryError.Plain.reported {error : RecoveryError} (plain : error.Plain) (s : RecoveryHost) :
    error.Reported s := fun units same => absurd same (plain units)

section Rules

variable {s : RecoveryHost} {E : RecoveryError → RecoveryHost → Prop}
  {allowed : RecoverySite → Reply RecoveryAnswer → Prop} {β : Type}

theorem wp_recoveryStep {Q : β → RecoveryHost → Prop} {site : RecoverySite}
    {f : RecoveryAnswer → RecoveryHost → Except RecoveryError (β × RecoveryHost)}
    (meets : site.Meets s) (refused : E .host s)
    (raises : ∀ answer t error, s.Idles t → f answer t = .error error → E error s)
    (moves : ∀ answer t value u, s.Idles t → f answer t = .ok (value, u) → Q value u ∧ E .host u) :
    (recoveryStep site f).wp allowed Q E RecoverySite.Meets s := by
  refine Process.wp_act.mpr ⟨meets, fun reply _ => ?_⟩
  cases reply with
  | done answer =>
    have idles := s.idles_jobs answer.jobs
    cases moved : f answer (s.jobs answer.jobs) with
    | error error =>
      simpa [Reply.apply, moved, Process.ofExcept] using raises answer _ error idles moved
    | ok pair =>
      simpa [Reply.apply, moved, Process.ofExcept] using (moves answer _ pair.1 pair.2 idles moved).1
  | refused => exact refused
  | lost answer =>
    have idles := s.idles_jobs answer.jobs
    cases moved : f answer (s.jobs answer.jobs) with
    | error error =>
      simpa [Reply.apply, moved, Process.ofExcept] using raises answer _ error idles moved
    | ok pair =>
      have kept : E Fault.fault pair.2 := (moves answer _ pair.1 pair.2 idles moved).2
      simpa [Reply.apply, moved, Process.ofExcept] using kept

theorem wp_recoveryAsk {Q : β → RecoveryHost → Prop} {site : RecoverySite}
    {f : RecoveryAnswer → RecoveryHost → Except RecoveryError β} (meets : site.Meets s)
    (fails : ∀ t, s.Idles t → E .host t)
    (raises : ∀ answer t error, s.Idles t → f answer t = .error error → E error s)
    (reads : ∀ answer t value, s.Idles t → f answer t = .ok value → Q value t) :
    (recoveryAsk site f).wp allowed Q E RecoverySite.Meets s := by
  refine wp_recoveryStep meets (fails s s.idles_refl) (fun answer t error idles read => ?_)
    fun answer t value u idles read => ?_
  · cases result : f answer t with
    | error other =>
      rw [result] at read
      cases read
      exact raises answer t error idles result
    | ok found =>
      rw [result] at read
      cases read
  · cases result : f answer t with
    | error other =>
      rw [result] at read
      cases read
    | ok found =>
      rw [result] at read
      cases read
      exact ⟨reads answer t value idles result, fails t idles⟩

theorem wp_recoveryModify {Q : Unit → RecoveryHost → Prop} {site : RecoverySite}
    {f : RecoveryAnswer → RecoveryHost → RecoveryHost} (meets : site.Meets s) (refused : E .host s)
    (moves : ∀ answer t, s.Idles t → Q () (f answer t) ∧ E .host (f answer t)) :
    (recoveryModify site f).wp allowed Q E RecoverySite.Meets s := by
  refine wp_recoveryStep meets refused (fun _ _ _ _ never => by cases never) fun answer t _ u idles moved => ?_
  cases moved
  exact moves answer t idles

theorem wp_recoveryCall {Q : Unit → RecoveryHost → Prop} {site : RecoverySite} (meets : site.Meets s)
    (fails : ∀ t, s.Idles t → E .host t) (returns : ∀ t, s.Idles t → Q () t) :
    (recoveryCall site).wp allowed Q E RecoverySite.Meets s :=
  wp_recoveryAsk meets fails (fun _ _ _ _ never => by cases never) fun _ t _ idles _ => returns t idles

theorem wp_inspectUnit {Q : Bool → RecoveryHost → Prop} {unit : RecoveryUnit} (named : s.Named)
    (fails : ∀ t, s.Idles t → E .host t) (reads : ∀ t, s.Idles t → Q (t.active unit) t) :
    (inspectUnit unit).wp allowed Q E RecoverySite.Meets s := by
  refine wp_recoveryAsk ⟨named, trivial⟩ fails (fun _ _ _ _ never => by cases never) ?_
  intro _ t value idles read
  cases read
  exact reads t idles

/-- `restoreUnits` with the units of the journal starts every one of them, or reports the ones that it
could not start. -/
theorem wp_restoreUnits {journal : RecoveryJournal} (named : s.Named)
    (found : s.journal.visible = some journal)
    (known : ∀ unit ∈ journal.units, unit ∈ RecoveryUnit.units) :
    (restoreUnits journal.units).wp allowed (fun _ t => s.Kept t ∧ t.Restored)
      (fun error t => s.Kept t ∧ error.Reported t) RecoverySite.Meets s := by
  have listed : ∀ unit, unit ∈ restoreOrder journal.units ↔ unit ∈ journal.units := by
    intro unit
    simp only [restoreOrder, List.mem_append, List.mem_filter, Bool.not_eq_true']
    cases RecoveryUnit.timers.contains unit <;> simp
  refine Process.wp_bind.mpr ((Process.wp_attemptEach (P := fun t => s.Kept t)
    (D := fun unit t => unit ∈ RecoveryUnit.units → t.active unit = true)
    (fun unit member t kept => ?_) ⟨rfl, rfl, rfl⟩).mono ?_ (fun _ _ held => held) fun _ _ held => held)
  · have needs : (RecoverySite.start unit).Meets t :=
      ⟨named.kept kept, journal, kept.journal ▸ found, (listed unit).mp member⟩
    have stays : ∀ (t u : RecoveryHost), t.Idles u → ∀ other,
        (other ∈ RecoveryUnit.units → t.active other = true) →
          other ∈ RecoveryUnit.units → (u.setActive unit true).active other = true := by
      intro t u idles other before member
      show (if other = unit then true else u.active other) = true
      split
      · rfl
      · rw [idles.others other (RecoveryHost.unit_not_job member)]
        exact before member
    refine wp_recoveryModify needs ⟨kept, fun _ before => before⟩ fun _ u idles => ?_
    have moved : s.Kept (u.setActive unit true) :=
      kept.trans ⟨idles.journal, idles.points, idles.deployment⟩
    exact ⟨⟨moved, fun _ => if_pos rfl, stays t u idles⟩, moved, stays t u idles⟩
  · rintro failed t ⟨kept, _, started, _⟩
    refine Process.wp_require.mpr ⟨fun none => ⟨kept, fun other seen unit member => ?_⟩,
      fun _ => ⟨kept, fun units same => ⟨journal, kept.journal ▸ found, fun unit member => ?_⟩⟩⟩
    · cases (kept.journal ▸ found).symm.trans seen
      refine (started unit ((listed unit).mpr member)).elim (fun never => ?_) fun done => done (known unit member)
      rw [none] at never
      cases never
    · cases same
      exact (started unit ((listed unit).mpr member)).symm.imp (fun done => done (known unit member)) id

theorem wp_readRecoveryJournal {Q : Option RecoveryJournal → RecoveryHost → Prop} (named : s.Named)
    (fails : ∀ error t, error.Plain → s.Idles t → E error t)
    (absent : ∀ t, s.Idles t → t.journal.visible = none → Q none t)
    (present : ∀ t journal, s.Idles t → t.journal.visible = some journal →
      (∀ unit ∈ journal.units, unit ∈ RecoveryUnit.units) → Q (some journal) t) :
    readRecoveryJournal.wp allowed Q E RecoverySite.Meets s := by
  refine wp_recoveryAsk ⟨named, trivial⟩ (fun t idles => fails .host t (by simp [RecoveryError.Plain]) idles)
    (fun _ t error _ read => ?_) fun _ t value idles read => ?_
  · have plain : error.Plain := by
      cases seen : t.journal.visible with
      | none => simp [seen] at read
      | some journal =>
        simp only [seen] at read
        split at read
        · cases read
        · cases read
          simp [RecoveryError.Plain]
    exact fails error s plain s.idles_refl
  · cases seen : t.journal.visible with
    | none =>
      simp only [seen, Except.ok.injEq] at read
      exact read ▸ absent t idles seen
    | some journal =>
      simp only [seen] at read
      split at read
      case isTrue valid =>
        cases read
        refine present t journal idles seen fun unit member => ?_
        simp only [validRecoveryJournal, Bool.and_eq_true, List.all_eq_true] at valid
        simpa using valid.1.1.2 unit member
      case isFalse => cases read

/-- `store.atomic`: the journal is replaced, and at the end no power loss brings the old one back. -/
theorem wp_saveRecoveryJournal {value : RecoveryJournal} (closed : s.deployment = none)
    (needs : ∀ t, s.Idles t → (RecoverySite.renameJournal value).Needs t) :
    (saveRecoveryJournal value).wp allowed
      (fun _ t => t.journal = .settled (some value) ∧ s.Idles { t with journal := s.journal })
      (fun error t => error.Plain ∧ t.points = s.points ∧ t.deployment = none ∧
        (t.journal.visible = s.journal.visible ∨ t.journal.visible = some value))
      RecoverySite.Meets s := by
  have plain : RecoveryError.host.Plain := by simp [RecoveryError.Plain]
  have stays : ∀ t : RecoveryHost, s.Idles { t with journal := s.journal } → t.deployment = none :=
    fun t idles => idles.deployment.trans closed
  refine Process.wp_bind.mpr (wp_recoveryCall ⟨RecoveryHost.named_of_none closed, trivial⟩ ?_ fun t idles => ?_)
  · exact fun t idles => ⟨plain, idles.points, idles.deployment.trans closed, .inl (by rw [idles.journal])⟩
  have unopened : t.deployment = none := idles.deployment.trans closed
  refine Process.wp_bind.mpr (wp_recoveryModify ⟨RecoveryHost.named_of_none unopened, needs t idles⟩
    ⟨plain, idles.points, unopened, .inl (by rw [idles.journal])⟩ fun _ u moved => ?_)
  have before := idles.trans moved
  have renamed : s.Idles { u with journal := s.journal } :=
    ⟨rfl, before.points, before.deployment, before.others, before.jobs⟩
  refine ⟨?_, plain, before.points, before.deployment.trans closed, .inr rfl⟩
  refine Process.wp_bind.mpr (wp_recoveryModify ⟨RecoveryHost.named_of_none (stays u renamed), trivial⟩
    ⟨plain, before.points, stays u renamed, .inr rfl⟩ fun _ v synced => ?_)
  have after : s.Idles { v with journal := s.journal } :=
    ⟨rfl, synced.points.trans before.points, synced.deployment.trans before.deployment,
      fun unit other => (synced.others unit other).trans (before.others unit other),
      (before.trans ⟨rfl, synced.points, synced.deployment, synced.others, synced.jobs⟩ :
        s.Idles { v with journal := u.journal }).jobs⟩
  have saved : v.journal.sync = .settled (some value) := by
    rw [synced.journal]
    rfl
  refine ⟨?_, plain, after.points, stays v after, .inr (by rw [saved]; rfl)⟩
  refine wp_recoveryCall ⟨RecoveryHost.named_of_none (stays v after), trivial⟩ ?_ ?_
  · intro w last
    refine ⟨plain, last.points.trans after.points, last.deployment.trans (stays v after), .inr ?_⟩
    rw [last.journal, saved]
    rfl
  · intro w last
    refine ⟨last.journal.trans saved, ?_⟩
    exact after.trans ⟨rfl, last.points, last.deployment, last.others, last.jobs⟩

theorem wp_removeRecoveryJournal {removal : JournalRemoval} (named : s.Named)
    (needs : ∀ t, s.Idles t → (RecoverySite.unlinkJournal removal).Needs t) :
    (removeRecoveryJournal removal).wp allowed
      (fun _ t => t.journal = .settled none ∧ t.deployment = none)
      (fun error t => error.Plain ∧ t.Named) RecoverySite.Meets s := by
  have plain : RecoveryError.host.Plain := by simp [RecoveryError.Plain]
  refine Process.wp_bind.mpr (wp_recoveryModify ⟨named, needs s s.idles_refl⟩ ⟨plain, named⟩ fun _ t idles => ?_)
  have settled : (match removal with
      | .acknowledge _ => none
      | .previous | .finished => t.deployment) = none := by
    have meets := (needs t idles).2
    cases removal with
    | acknowledge id => rfl
    | previous | finished => exact meets
  refine ⟨?_, plain, RecoveryHost.named_of_none settled⟩
  refine wp_recoveryModify ⟨RecoveryHost.named_of_none settled, trivial⟩
    ⟨plain, RecoveryHost.named_of_none settled⟩ fun _ u moved => ?_
  have after : u.deployment = none := moved.deployment.trans settled
  refine ⟨⟨?_, after⟩, plain, RecoveryHost.named_of_none after⟩
  show u.journal.sync = _
  rw [moved.journal]
  rfl

end Rules

end LatexRenderer
