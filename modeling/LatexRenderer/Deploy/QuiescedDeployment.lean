import LatexRenderer.Deploy.QuiescedRecovery

/-! # A quiesced recovery from its journal to its end

The stops of a run are followed on the units of its journal: what is active is listed there, so what is
not listed need not be stopped. A deployment begins on a quiet host, and whichever way it ends, the listed
units are started before the journal goes.
-/

namespace LatexRenderer

open Machine RecoveryHost

section Procedures

variable {s : RecoveryHost} {allowed : RecoverySite → Reply RecoveryAnswer → Prop}

theorem plain_host : RecoveryError.host.Plain := by simp [RecoveryError.Plain]

theorem wp_filterActive {units : List RecoveryUnit} {E : RecoveryError → RecoveryHost → Prop}
    (named : s.Named) (fails : ∀ t, s.Idles t → E .host t)
    (known : ∀ unit ∈ units, unit ∈ RecoveryUnit.units) :
    (filterActive units).wp allowed (fun original t => s.Idles t ∧ original = units.filter s.active) E
      RecoverySite.Meets s := by
  induction units generalizing s with
  | nil => exact ⟨s.idles_refl, rfl⟩
  | cons unit rest ih =>
    refine Process.wp_bind.mpr (wp_inspectUnit named fails fun t idles => ?_)
    have within : ∀ other ∈ rest, other ∈ RecoveryUnit.units :=
      fun other member => known other (List.mem_cons_of_mem _ member)
    refine Process.wp_bind.mpr ((ih (named.kept idles.kept) (fun u later => fails u (idles.trans later))
      within).mono ?_ (fun _ _ held => held) fun _ _ held => held)
    rintro others u ⟨later, rfl⟩
    have same : ∀ other ∈ unit :: rest, t.active other = s.active other :=
      fun other member => idles.others other (unit_not_job (known other member))
    have tail : rest.filter t.active = rest.filter s.active :=
      List.filter_congr fun other member => same other (List.mem_cons_of_mem _ member)
    refine ⟨idles.trans later, ?_⟩
    rw [same unit List.mem_cons_self, tail, List.filter_cons]

/-- What the journal of a run lists. -/
def RecoveryHost.Covers (s : RecoveryHost) (units : List RecoveryUnit) : Prop :=
  ∀ unit ∈ RecoveryUnit.units, s.active unit = true → unit ∈ units

/-- Where a run is while it stops units. -/
structure RecoveryHost.Stopping (s : RecoveryHost) (journal : RecoveryJournal) (t : RecoveryHost) :
    Prop where
  kept : s.Kept t
  covers : t.Covers journal.units

theorem RecoveryHost.Covers.idles {t : RecoveryHost} {units : List RecoveryUnit} (covers : s.Covers units)
    (idles : s.Idles t) : t.Covers units := by
  intro unit known running
  rw [idles.others unit (unit_not_job known)] at running
  exact covers unit known running

theorem RecoveryHost.Stopping.idles {journal : RecoveryJournal} {t u : RecoveryHost}
    (stopping : s.Stopping journal t) (idles : t.Idles u) : s.Stopping journal u :=
  ⟨stopping.kept.trans idles.kept, stopping.covers.idles idles⟩

theorem RecoveryHost.Stopping.stop {journal : RecoveryJournal} {t : RecoveryHost}
    (stopping : s.Stopping journal t) (unit : RecoveryUnit) :
    s.Stopping journal (t.setActive unit false) := by
  refine ⟨⟨stopping.kept.journal, stopping.kept.points, stopping.kept.deployment⟩, ?_⟩
  intro other known running
  refine stopping.covers other known ?_
  by_cases same : other = unit
  · simp [setActive, same] at running
  · simpa [setActive, same] using running

/-- No timer is active. -/
def RecoveryHost.Untimed (s : RecoveryHost) : Prop :=
  ∀ timer ∈ RecoveryUnit.timers, s.active timer = false

/-- Without timers, what is stopped stays stopped. -/
theorem RecoveryHost.Untimed.stays {t : RecoveryHost} (untimed : s.Untimed) (idles : s.Idles t)
    {unit : RecoveryUnit} (stopped : s.active unit = false) : t.active unit = false := by
  by_cases job : unit ∈ RecoveryUnit.maintenance
  · exact idles.jobs untimed unit job stopped
  · rw [idles.others unit job]
    exact stopped

theorem RecoveryHost.Untimed.idles {t : RecoveryHost} (untimed : s.Untimed) (idles : s.Idles t) :
    t.Untimed :=
  fun timer member => untimed.stays idles (untimed timer member)

theorem setActive_false_stopped {unit other : RecoveryUnit} (stopped : s.active other = false) :
    (s.setActive unit false).active other = false := by
  by_cases same : other = unit
  · simp [setActive, same]
  · simpa [setActive, same] using stopped

/-- `units.some(inspect)` raises the error, or all the units are stopped and, without timers, stay so. -/
theorem wp_requireInactive {units : List RecoveryUnit} {error : RecoveryError} {P : RecoveryHost → Prop}
    (plain : error.Plain) (named : ∀ t, P t → t.Named) (untimed : ∀ t, P t → t.Untimed)
    (idles : ∀ t u, P t → t.Idles u → P u) (start : P s) :
    (requireInactive units error).wp allowed
      (fun _ t => P t ∧ ∀ unit ∈ units, t.active unit = false) (fun error t => error.Plain ∧ P t)
      RecoverySite.Meets s := by
  refine (Process.wp_each_done (P := P) (D := fun unit t => t.active unit = false)
    (fun unit _ t held => ?_) start).mono (fun _ _ held => ⟨held.1, held.2.1⟩) (fun _ _ held => held)
    fun _ _ held => held
  refine Process.wp_bind.mpr (wp_inspectUnit (named t held)
    (fun u later => ⟨plain_host, idles t u held later⟩) fun u later => ?_)
  refine Process.wp_require.mpr ⟨fun stopped => ⟨idles t u held later, stopped, fun other before => ?_⟩,
    fun _ => ⟨plain, idles t u held later⟩⟩
  exact (untimed t held).stays later before

theorem wp_quiesce {journal : RecoveryJournal} (closed : s.deployment = none)
    (settled : s.journal = .settled (some journal)) (covers : s.Covers journal.units) :
    (quiesce journal.units).wp allowed (fun _ t => s.Kept t ∧ t.Quiet)
      (fun error t => error.Plain ∧ s.Kept t) RecoverySite.Meets s := by
  have named : ∀ {t}, s.Kept t → t.Named := fun kept => named_of_none (kept.deployment.trans closed)
  have stops : ∀ {t : RecoveryHost} (unit), s.Stopping journal t → unit ∈ RecoveryUnit.units →
      (RecoverySite.stop unit).Meets t := fun unit stopping known =>
    ⟨named stopping.kept, journal, stopping.kept.journal.trans settled, stopping.covers unit known⟩
  have timers : (Process.each RecoveryUnit.timers fun unit =>
      if unit ∈ journal.units then stopUnit unit else pure () : RecoveryProcess Unit).wp allowed
      (fun _ t => s.Stopping journal t ∧ t.Untimed) (fun error t => error.Plain ∧ s.Kept t)
      RecoverySite.Meets s := by
    refine (Process.wp_each_done (P := fun t => s.Stopping journal t)
      (D := fun unit t => unit ∉ RecoveryUnit.maintenance → t.active unit = false)
      (fun unit member t stopping => ?_) ⟨⟨rfl, rfl, rfl⟩, covers⟩).mono ?_ (fun _ _ held => held)
      fun _ _ held => held
    · have known : unit ∈ RecoveryUnit.units :=
        List.mem_append_left _ (List.mem_append_left _ member)
      refine Process.wp_ite.mpr ⟨fun _ => ?_, fun unlisted => ⟨stopping, fun _ => ?_, fun _ before => before⟩⟩
      · refine wp_recoveryModify (stops unit stopping known) ⟨plain_host, stopping.kept⟩ fun _ u idles => ?_
        have stopped := (stopping.idles idles).stop unit
        refine ⟨⟨stopped, fun _ => if_pos rfl, fun other before service => ?_⟩, plain_host, stopped.kept⟩
        refine setActive_false_stopped ?_
        rw [idles.others other service]
        exact before service
      · by_contra running
        exact unlisted (stopping.covers unit known (by simpa using running))
    · rintro _ t ⟨stopping, stopped, _⟩
      exact ⟨stopping, fun timer member => stopped timer member (timer_not_job member)⟩
  refine Process.wp_bind.mpr (timers.mono ?_ (fun _ _ held => held) fun _ _ held => held)
  rintro _ t ⟨stopping, untimed⟩
  refine Process.wp_bind.mpr ((wp_requireInactive (P := fun u => s.Stopping journal u ∧ u.Untimed)
    (by simp [RecoveryError.Plain]) (fun u held => named held.1.kept) (fun u held => held.2)
    (fun u v held idles => ⟨held.1.idles idles, held.2.idles idles⟩) ⟨stopping, untimed⟩).mono ?_
    (fun _ _ held => ⟨held.1, held.2.1.kept⟩) fun _ _ held => held)
  rintro _ t ⟨⟨stopping, untimed⟩, jobless⟩
  -- from here on no timer and no job is active
  let Still (u : RecoveryHost) : Prop := s.Stopping journal u ∧ u.Untimed ∧
    ∀ unit ∈ RecoveryUnit.maintenance, u.active unit = false
  have still_idles : ∀ u v, Still u → u.Idles v → Still v := fun u v held idles =>
    ⟨held.1.idles idles, held.2.1.idles idles,
      fun unit member => held.2.1.stays idles (held.2.2 unit member)⟩
  have still_stop : ∀ u unit, Still u → Still (u.setActive unit false) := fun u unit held =>
    ⟨held.1.stop unit, fun timer member => setActive_false_stopped (held.2.1 timer member),
      fun job member => setActive_false_stopped (held.2.2 job member)⟩
  have stopped : ∀ u unit, Still u → unit ∈ RecoveryUnit.units → (stopUnit unit).wp allowed
      (fun _ => Still) (fun error t => error.Plain ∧ s.Kept t) RecoverySite.Meets u := by
    intro u unit held known
    refine wp_recoveryModify (stops unit held.1 known) ⟨plain_host, held.1.kept⟩ fun _ v idles => ?_
    have after := still_stop v unit (still_idles u v held idles)
    exact ⟨after, plain_host, after.1.kept⟩
  refine Process.wp_bind.mpr ((Process.wp_each (P := Still) (fun unit member u held => ?_)
    ⟨stopping, untimed, jobless⟩).mono ?_ (fun _ _ held => held) fun _ _ held => held)
  · have known : unit ∈ RecoveryUnit.units :=
      List.mem_append_left _ (List.mem_append_right _ member)
    refine Process.wp_ite.mpr ⟨fun _ => stopped u unit held known, fun _ => ?_⟩
    refine Process.wp_bind.mpr (wp_inspectUnit (named held.1.kept)
      (fun v idles => ⟨plain_host, (still_idles u v held idles).1.kept⟩) fun v idles => ?_)
    have later := still_idles u v held idles
    exact Process.wp_ite.mpr ⟨fun _ => stopped v unit later known, fun _ => later⟩
  · intro _ u held
    refine (wp_requireInactive (P := Still) (by simp [RecoveryError.Plain]) (fun v held => named held.1.kept)
      (fun v held => held.2.1) still_idles held).mono ?_ (fun _ _ held => ⟨held.1, held.2.1.kept⟩)
      fun _ _ held => held
    rintro _ v ⟨⟨last, untimed, jobless⟩, unwritten⟩
    refine ⟨last.kept, fun unit member => ?_⟩
    rcases List.mem_append.mp member with member | writer
    · exact (List.mem_append.mp member).elim (untimed unit) (jobless unit)
    · exact unwritten unit writer

theorem wp_collectPoints {protectedId : Option String} {Q : Unit → RecoveryHost → Prop}
    {E : RecoveryError → RecoveryHost → Prop} (closed : s.deployment = none) (refused : E .host s)
    (collected : ∀ t points, s.Idles t →
      Q () { t with points := points } ∧ E .host { t with points := points }) :
    (collectPoints protectedId).wp allowed Q E RecoverySite.Meets s :=
  wp_recoveryModify ⟨named_of_none closed, closed⟩ refused fun _ t idles => collected t _ idles

theorem wp_createPoint (closed : s.deployment = none) (quiet : s.Quiet) :
    createPoint.wp allowed
      (fun id t => t.journal = s.journal ∧ t.deployment = none ∧ t.Quiet ∧ id ∈ t.points)
      (fun error t => error.Plain ∧ t.journal = s.journal ∧ t.deployment = none) RecoverySite.Meets s := by
  refine Process.wp_bind.mpr (wp_collectPoints closed ⟨plain_host, rfl, closed⟩ fun t points idles => ?_)
  have still : t.Quiet := quiet.idles idles
  refine ⟨?_, plain_host, idles.journal, idles.deployment.trans closed⟩
  refine wp_recoveryStep ⟨named_of_none (idles.deployment.trans closed), idles.deployment.trans closed⟩
    ⟨plain_host, idles.journal, idles.deployment.trans closed⟩ (fun _ u error later made => ?_)
    fun _ u id v later made => ?_
  · split at made
    · cases made
      exact ⟨plain_host, idles.journal, idles.deployment.trans closed⟩
    · cases made
  · split at made
    · cases made
    · cases made
      have journal : u.journal = s.journal := later.journal.trans idles.journal
      have deployment : u.deployment = none := later.deployment.trans (idles.deployment.trans closed)
      refine ⟨⟨journal, deployment, ?_, List.mem_cons_self⟩, plain_host, journal, deployment⟩
      have calm : u.Quiet := RecoveryHost.Quiet.idles (s := { t with points := points }) still later
      exact calm

/-- A deployment begins on a quiet host under a journal that names its point. When it fails, the journal
still lists the units. -/
theorem wp_deployPoint {journal : RecoveryJournal} {id : String} (closed : s.deployment = none)
    (settled : s.journal = .settled (some journal)) (unnamed : journal.pointId = none) (quiet : s.Quiet)
    (there : id ∈ s.points) :
    (deployPoint journal id).wp allowed
      (fun _ t => t.deployment = none ∧ t.journal = .settled (some { journal with pointId := some id }))
      (fun error t => error.Plain ∧ t.Named ∧
        ∃ other, t.journal.visible = some other ∧ other.units = journal.units)
      RecoverySite.Meets s := by
  have needs : ∀ t, s.Idles t → (RecoverySite.renameJournal { journal with pointId := some id }).Needs t := by
    intro t idles
    refine ⟨idles.deployment.trans closed, .inr ⟨journal, ?_, unnamed, rfl⟩⟩
    rw [idles.journal, settled]
    rfl
  refine Process.wp_bind.mpr ((wp_saveRecoveryJournal closed needs).mono ?_ ?_ fun _ _ held => held)
  swap
  · rintro error t ⟨plain, _, unopened, visible | visible⟩
    · exact ⟨plain, named_of_none unopened, journal, by rw [visible, settled]; rfl, rfl⟩
    · exact ⟨plain, named_of_none unopened, _, visible, rfl⟩
  rintro _ t ⟨saved, idles⟩
  have calm : t.Quiet := by
    have before := quiet.idles idles
    exact before
  have listed : id ∈ t.points := by
    have before := idles.points
    exact before ▸ there
  refine Process.wp_bind.mpr (Process.wp_mark.mpr ⟨⟨named_of_none ?_, calm, ?_, listed, _, saved, rfl⟩,
    fun _ => ?_⟩)
  · exact idles.deployment.trans closed
  · exact idles.deployment.trans closed
  have named : RecoveryHost.Named { t with deployment := some id } := by
    intro other deployed
    cases deployed
    exact ⟨listed, _, saved, rfl⟩
  have visible : t.journal.visible = some { journal with pointId := some id } := by rw [saved]; rfl
  refine Process.wp_bind.mpr (wp_recoveryModify ⟨named, calm, rfl⟩ ⟨plain_host, named, _, visible, rfl⟩
    fun _ u later => ?_)
  have kept : RecoveryHost.Kept { t with deployment := some id } u := later.kept
  have after := named.kept kept
  refine ⟨Process.wp_mark.mpr ⟨⟨after, later.deployment⟩, fun _ => ⟨rfl, later.journal.trans saved⟩⟩,
    plain_host, after, { journal with pointId := some id }, ?_, rfl⟩
  exact (congrArg Durable.visible later.journal).trans visible

/-- An error of a command keeps the invariant, and an error of a restoration is true. -/
abbrev RecoveryFailed (error : RecoveryError) (t : RecoveryHost) : Prop := t.Named ∧ error.Reported t

theorem RecoveryError.Plain.failed {error : RecoveryError} {t : RecoveryHost} (plain : error.Plain)
    (named : t.Named) : RecoveryFailed error t :=
  ⟨named, plain.reported t⟩

/-- The `finally` block: the units are started, and the journal of a run that has no deployment to protect
is removed. -/
theorem wp_restoreQuiesced {journal : RecoveryJournal} {point : Option String} {completed : Bool}
    {Q : Unit → RecoveryHost → Prop} (named : s.Named) (found : s.journal.visible = some journal)
    (known : ∀ unit ∈ journal.units, unit ∈ RecoveryUnit.units)
    (closed : completed = true ∨ point = none → s.deployment = none)
    (returns : ∀ t, t.Named → Q () t) :
    (restoreQuiesced journal.units point completed).wp allowed Q RecoveryFailed RecoverySite.Meets s := by
  refine Process.wp_bind.mpr ((wp_restoreUnits named found known).mono ?_
    (fun error t failed => ⟨named.kept failed.1, failed.2⟩) fun _ _ held => held)
  rintro _ t ⟨kept, restored⟩
  refine Process.wp_ite.mpr ⟨fun removes => ?_, fun _ => returns t (named.kept kept)⟩
  have unopened : t.deployment = none := by
    refine kept.deployment.trans (closed ?_)
    simpa using removes
  have needs : ∀ u, t.Idles u → (RecoverySite.unlinkJournal .finished).Needs u := by
    intro u idles
    refine ⟨fun other seen unit member => ?_, idles.deployment.trans unopened⟩
    rw [idles.journal] at seen
    have same : other = journal := Option.some.inj (seen.symm.trans (kept.journal ▸ found))
    rw [idles.others unit (unit_not_job (known unit (same ▸ member)))]
    exact restored other seen unit member
  refine Process.wp_bind.mpr ((wp_removeRecoveryJournal (named.kept kept) needs).mono ?_
    (fun error u failed => failed.1.failed failed.2) fun _ _ held => held)
  rintro _ u ⟨_, gone⟩
  refine Process.wp_ite.mpr ⟨fun _ => ?_, fun _ => returns u (named_of_none gone)⟩
  refine Process.wp_bind.mpr (Process.wp_attempt.mpr (wp_collectPoints gone ?_ fun v points idles => ?_))
  · exact returns u (named_of_none gone)
  · have after : RecoveryHost.Named { v with points := points } :=
      named_of_none (idles.deployment.trans gone)
    exact ⟨returns _ after, returns _ after⟩

theorem wp_deployQuiesced {journal : RecoveryJournal} (closed : s.deployment = none)
    (settled : s.journal = .settled (some journal)) (unnamed : journal.pointId = none)
    (known : ∀ unit ∈ journal.units, unit ∈ RecoveryUnit.units) (covers : s.Covers journal.units) :
    (deployQuiesced journal).wp allowed (fun _ t => t.Named) RecoveryFailed RecoverySite.Meets s := by
  have visible : ∀ t : RecoveryHost, t.journal = s.journal → t.journal.visible = some journal := by
    intro t same
    rw [same, settled]
    rfl
  have finished : ∀ id u, u.journal = s.journal → u.deployment = none → u.Quiet → id ∈ u.points →
      (finishPreparation journal (.ok id)).wp allowed (fun _ t => t.Named) RecoveryFailed
        RecoverySite.Meets u := by
    intro id u same unopened quiet there
    refine Process.wp_bind.mpr (Process.wp_outcome.mpr ?_)
    refine (wp_deployPoint unopened (same.trans settled) unnamed quiet there).mono ?_ ?_ fun _ _ held => held
    · rintro _ v ⟨completed, saved⟩
      have listed : v.journal.visible = some { journal with pointId := some id } := by rw [saved]; rfl
      let named : RecoveryJournal := { journal with pointId := some id }
      have restored : (restoreQuiesced named.units (some id) true).wp allowed (fun _ t => t.Named)
          RecoveryFailed RecoverySite.Meets v :=
        wp_restoreQuiesced (named_of_none completed) listed known (fun _ => completed) fun _ held => held
      exact restored
    · rintro error v ⟨plain, named, other, listed, same⟩
      have restored : (restoreQuiesced journal.units (some id) false).wp allowed (fun _ t => t.Named)
          RecoveryFailed RecoverySite.Meets v := by
        rw [← same]
        exact wp_restoreQuiesced named listed (same ▸ known) (by simp) fun _ named => named
      have failed : RecoveryError.Plain (.deploymentFailed id error.message) := by
        simp [RecoveryError.Plain]
      exact Process.wp_bind.mpr (restored.mono (fun _ t named => failed.failed named)
        (fun _ _ held => held) fun _ _ held => held)
  have failed : ∀ error u, error.Plain → u.journal = s.journal → u.deployment = none →
      (finishPreparation journal (.error error)).wp allowed (fun _ t => t.Named) RecoveryFailed
        RecoverySite.Meets u := by
    intro error u plain same unopened
    have restored : (restoreQuiesced journal.units none false).wp allowed (fun _ t => t.Named)
        RecoveryFailed RecoverySite.Meets u :=
      wp_restoreQuiesced (named_of_none unopened) (visible u same) known (fun _ => unopened)
        fun _ named => named
    exact Process.wp_bind.mpr (restored.mono (fun _ t named => plain.failed named)
      (fun _ _ held => held) fun _ _ held => held)
  refine Process.wp_bind.mpr (Process.wp_outcome.mpr (Process.wp_bind.mpr ?_))
  refine (wp_quiesce closed settled covers).mono ?_ ?_ fun _ _ held => held
  · rintro _ t ⟨kept, quiet⟩
    refine (wp_createPoint (kept.deployment.trans closed) quiet).mono ?_ ?_ fun _ _ held => held
    · rintro id u ⟨same, unopened, calm, there⟩
      exact finished id u (same.trans kept.journal) unopened calm there
    · rintro error u ⟨plain, same, unopened⟩
      exact failed error u plain (same.trans kept.journal) unopened
  · rintro error t ⟨plain, kept⟩
    exact failed error t plain kept.journal (kept.deployment.trans closed)

theorem wp_settlePrevious (named : s.Named) :
    settlePrevious.wp allowed (fun _ t => t.journal.visible = none ∧ t.deployment = none) RecoveryFailed
      RecoverySite.Meets s := by
  refine Process.wp_bind.mpr (wp_readRecoveryJournal named
    (fun error t plain idles => plain.failed (named.kept idles.kept)) ?_ ?_)
  · intro t idles none
    refine ⟨none, (named.kept idles.kept).deployment_eq_none fun journal seen => ?_⟩
    cases none.symm.trans seen
  · intro t journal idles found known
    have here := named.kept idles.kept
    refine Process.wp_bind.mpr (wp_recoveryAsk ⟨here, trivial⟩
      (fun u later => plain_host.failed (here.kept later.kept)) (fun _ _ _ _ never => by cases never) ?_)
    intro _ u running later _
    have next := here.kept later.kept
    refine Process.wp_bind.mpr (Process.wp_require.mpr ⟨fun _ => ?_,
      fun _ => RecoveryError.Plain.failed (by simp [RecoveryError.Plain]) next⟩)
    have seen : u.journal.visible = some journal := later.journal ▸ found
    refine Process.wp_bind.mpr ((wp_restoreUnits next seen known).mono ?_
      (fun error v failed => ⟨next.kept failed.1, failed.2⟩) fun _ _ held => held)
    rintro _ v ⟨kept, restored⟩
    have last := next.kept kept
    refine Process.wp_bind.mpr (Process.wp_require.mpr ⟨fun unnamed => ?_,
      fun _ => RecoveryError.Plain.failed (by simp [RecoveryError.Plain]) last⟩)
    have only : ∀ other, v.journal.visible = some other → other = journal := fun other shown =>
      Option.some.inj (shown.symm.trans (kept.journal ▸ seen))
    have closed : v.deployment = none :=
      last.deployment_eq_none fun other shown => (only other shown).symm ▸ unnamed
    refine (wp_removeRecoveryJournal last fun w idles => ⟨fun other shown unit member => ?_,
      idles.deployment.trans closed⟩).mono ?_ (fun error w failed => failed.1.failed failed.2)
      fun _ _ held => held
    · rw [idles.journal] at shown
      have same := only other shown
      rw [idles.others unit (unit_not_job (known unit (same ▸ member)))]
      exact restored other shown unit member
    · rintro _ w ⟨gone, settled⟩
      exact ⟨by rw [gone]; rfl, settled⟩

theorem wp_withQuiescedRecovery {preflight : Bool} (named : s.Named) :
    (withQuiescedRecovery preflight).wp allowed (fun _ t => t.Named) RecoveryFailed
      RecoverySite.Meets s := by
  refine Process.wp_bind.mpr (wp_recoveryCall ⟨named, trivial⟩
    (fun t idles => plain_host.failed (named.kept idles.kept)) fun t idles => ?_)
  refine Process.wp_bind.mpr ((wp_settlePrevious (named.kept idles.kept)).mono ?_ (fun _ _ held => held)
    fun _ _ held => held)
  rintro _ u ⟨absent, closed⟩
  have fails : ∀ v, u.Idles v → RecoveryFailed .host v := fun v idles =>
    plain_host.failed (named_of_none (idles.deployment.trans closed))
  have ready : (if preflight then recoveryCall .preflight else pure () : RecoveryProcess Unit).wp allowed
      (fun _ v => u.Idles v) RecoveryFailed RecoverySite.Meets u :=
    Process.wp_ite.mpr ⟨fun _ => wp_recoveryCall ⟨named_of_none closed, trivial⟩ fails fun _ idles => idles,
      fun _ => u.idles_refl⟩
  refine Process.wp_bind.mpr (ready.mono ?_ (fun _ _ held => held) fun _ _ held => held)
  rintro _ v idles
  have unopened : v.deployment = none := idles.deployment.trans closed
  refine Process.wp_bind.mpr ((wp_filterActive (named_of_none unopened)
    (fun w later => fails w (idles.trans later)) fun _ member => member).mono ?_ (fun _ _ held => held)
    fun _ _ held => held)
  rintro original w ⟨later, rfl⟩
  have here : w.deployment = none := later.deployment.trans unopened
  refine Process.wp_bind.mpr (wp_recoveryAsk ⟨named_of_none here, trivial⟩
    (fun x last => fails x ((idles.trans later).trans last)) (fun answer x error last read => ?_) ?_)
  · cases found : answer.owner with
    | none =>
      rw [found] at read
      cases read
      exact fails w (idles.trans later)
    | some owner =>
      rw [found] at read
      cases read
  intro _ x owner last _
  have since : v.Idles x := later.trans last
  have active : ∀ y, x.Idles y → RecoveryUnit.units.filter v.active = RecoveryUnit.units.filter y.active :=
    fun y moved => List.filter_congr fun unit member =>
      ((since.trans moved).others unit (unit_not_job member)).symm
  have unopened : x.deployment = none := last.deployment.trans here
  have unseen : x.journal.visible = none := by
    rw [(idles.trans since).journal]
    exact absent
  refine Process.wp_bind.mpr ((wp_saveRecoveryJournal unopened fun y moved =>
    ⟨moved.deployment.trans unopened, .inl ⟨by rw [moved.journal]; exact unseen, active y moved, rfl⟩⟩).mono ?_
    (fun error y failed => failed.1.failed (named_of_none failed.2.2.1)) fun _ _ held => held)
  rintro _ y ⟨saved, moved⟩
  refine wp_deployQuiesced (moved.deployment.trans unopened) saved rfl
    (fun unit member => (List.mem_filter.mp member).1) fun unit known running => ?_
  refine List.mem_filter.mpr ⟨known, ?_⟩
  rw [← (since.trans moved).others unit (unit_not_job known)]
  exact running

theorem wp_acknowledgePoint {id : String} (named : s.Named) :
    (acknowledgePoint id).wp allowed (fun _ t => t.Named) RecoveryFailed RecoverySite.Meets s := by
  refine Process.wp_bind.mpr (wp_recoveryCall ⟨named, trivial⟩
    (fun t idles => plain_host.failed (named.kept idles.kept)) fun t idles => ?_)
  have here := named.kept idles.kept
  have exactly : RecoveryError.Plain .namePointExactly := by simp [RecoveryError.Plain]
  refine Process.wp_bind.mpr (wp_readRecoveryJournal here
    (fun error u plain later => plain.failed (here.kept later.kept)) ?_ ?_)
  · exact fun u later _ => exactly.failed (here.kept later.kept)
  · intro u pending later found known
    have next := here.kept later.kept
    refine Process.wp_bind.mpr (Process.wp_require.mpr ⟨fun names => ?_, fun _ => exactly.failed next⟩)
    refine Process.wp_bind.mpr (wp_recoveryAsk ⟨next, trivial⟩
      (fun v moved => plain_host.failed (next.kept moved.kept)) (fun _ _ _ _ never => by cases never) ?_)
    intro _ v alive moved _
    have there := next.kept moved.kept
    refine Process.wp_bind.mpr (Process.wp_require.mpr ⟨fun _ => ?_,
      fun _ => RecoveryError.Plain.failed (by simp [RecoveryError.Plain]) there⟩)
    have seen : v.journal.visible = some pending := moved.journal ▸ found
    refine Process.wp_bind.mpr ((wp_restoreUnits there seen known).mono ?_
      (fun error w failed => ⟨there.kept failed.1, failed.2⟩) fun _ _ held => held)
    rintro _ w ⟨kept, restored⟩
    have only : ∀ x, w.Idles x → ∀ other, x.journal.visible = some other → other = pending := by
      intro x idles other shown
      rw [idles.journal, kept.journal, seen] at shown
      exact (Option.some.inj shown).symm
    refine (wp_removeRecoveryJournal (there.kept kept) fun x idles => ⟨fun other shown unit member => ?_,
      fun other shown => (only x idles other shown).symm ▸ names⟩).mono
      (fun _ x gone => named_of_none gone.2) (fun error x failed => failed.1.failed failed.2)
      fun _ _ held => held
    have same := only x idles other shown
    rw [idles.others unit (unit_not_job (known unit (same ▸ member)))]
    exact restored other (idles.journal ▸ shown) unit member

theorem wp_collectRecovery (named : s.Named) :
    collectRecovery.wp allowed (fun _ t => t.Named) RecoveryFailed RecoverySite.Meets s := by
  refine Process.wp_bind.mpr (wp_recoveryCall ⟨named, trivial⟩
    (fun t idles => plain_host.failed (named.kept idles.kept)) fun t idles => ?_)
  have here := named.kept idles.kept
  refine Process.wp_bind.mpr (wp_readRecoveryJournal here
    (fun error u plain later => plain.failed (here.kept later.kept)) ?_ ?_)
  · intro u later absent
    have closed : u.deployment = none := (here.kept later.kept).deployment_eq_none fun journal seen => by
      cases absent.symm.trans seen
    refine wp_collectPoints closed (plain_host.failed (named_of_none closed)) fun v points moved => ?_
    have after : RecoveryHost.Named { v with points := points } :=
      named_of_none (moved.deployment.trans closed)
    exact ⟨after, plain_host.failed after⟩
  · exact fun u journal later _ _ => here.kept later.kept

end Procedures

end LatexRenderer
