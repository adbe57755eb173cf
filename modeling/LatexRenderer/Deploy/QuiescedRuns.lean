import LatexRenderer.Deploy.QuiescedDeployment

/-! # Quiesced recoveries over whole runs

Runs may fail or be killed at any step and may be followed by any number of further runs,
acknowledgements and collections, with power losses and changes of units between them.
-/

namespace LatexRenderer

open Machine RecoveryHost

/-- The journal is written and removed by its own steps, and a deployment is begun, completed and
acknowledged by its own. -/
structure RecoveryChange (site : RecoverySite) (s t : RecoveryHost) : Prop where
  journal : t.journal.visible = s.journal.visible ∨
    (∃ value, site = .renameJournal value ∧ t.journal.visible = some value) ∨
    (∃ removal, site = .unlinkJournal removal ∧ t.journal.visible = none)
  deployment : t.deployment = s.deployment ∨ (∃ id, site = .beginAction id) ∨
    (∃ id, site = .complete id) ∨ (∃ id, site = .unlinkJournal (.acknowledge id))

section Steps

theorem recoveryChange_refl {site : RecoverySite} (s : RecoveryHost) : RecoveryChange site s s :=
  ⟨.inl rfl, .inl rfl⟩

theorem steps_recoveryStep {β : Type} {site : RecoverySite}
    {f : RecoveryAnswer → RecoveryHost → Except RecoveryError (β × RecoveryHost)}
    (moves : ∀ answer s value t, f answer s = .ok (value, t) → RecoveryChange site s t) :
    (recoveryStep site f).Steps RecoveryChange := by
  refine .act recoveryChange_refl fun answer s value t moved => ?_
  have change := moves answer _ value t moved
  exact ⟨change.journal, change.deployment⟩

theorem steps_recoveryAsk {β : Type} {site : RecoverySite}
    {f : RecoveryAnswer → RecoveryHost → Except RecoveryError β} :
    (recoveryAsk site f).Steps RecoveryChange := by
  refine steps_recoveryStep fun answer s value t read => ?_
  cases result : f answer s with
  | error error => simp [result, Except.map] at read
  | ok found =>
    simp only [result, Except.map, Except.ok.injEq, Prod.mk.injEq] at read
    exact read.2 ▸ recoveryChange_refl s

theorem steps_recoveryModify {site : RecoverySite} {f : RecoveryAnswer → RecoveryHost → RecoveryHost}
    (moves : ∀ answer s, RecoveryChange site s (f answer s)) :
    (recoveryModify site f).Steps RecoveryChange := by
  refine steps_recoveryStep fun answer s _ t moved => ?_
  cases moved
  exact moves answer s

theorem steps_restoreUnits {units : List RecoveryUnit} : (restoreUnits units).Steps RecoveryChange :=
  .bind (.attemptEach fun _ => steps_recoveryModify fun _ _ => ⟨.inl rfl, .inl rfl⟩) fun _ => .require

theorem steps_saveRecoveryJournal {value : RecoveryJournal} :
    (saveRecoveryJournal value).Steps RecoveryChange :=
  .bind steps_recoveryAsk fun _ =>
    .bind (steps_recoveryModify fun _ _ => ⟨.inr (.inl ⟨value, rfl, rfl⟩), .inl rfl⟩) fun _ =>
    .bind (steps_recoveryModify fun _ _ => ⟨.inl rfl, .inl rfl⟩) fun _ => steps_recoveryAsk

theorem steps_removeRecoveryJournal {removal : JournalRemoval} :
    (removeRecoveryJournal removal).Steps RecoveryChange := by
  refine .bind (steps_recoveryModify fun _ s => ⟨.inr (.inr ⟨removal, rfl, rfl⟩), ?_⟩) fun _ =>
    steps_recoveryModify fun _ _ => ⟨.inl rfl, .inl rfl⟩
  cases removal with
  | acknowledge id => exact .inr (.inr (.inr ⟨id, rfl⟩))
  | previous | finished => exact .inl rfl

theorem steps_filterActive {units : List RecoveryUnit} : (filterActive units).Steps RecoveryChange := by
  induction units with
  | nil => trivial
  | cons unit rest ih => exact .bind steps_recoveryAsk fun _ => .bind ih fun _ => trivial

theorem steps_requireInactive {units : List RecoveryUnit} {error : RecoveryError} :
    (requireInactive units error).Steps RecoveryChange :=
  .each fun _ => .bind steps_recoveryAsk fun _ => .require

theorem steps_stopUnit {unit : RecoveryUnit} : (stopUnit unit).Steps RecoveryChange :=
  steps_recoveryModify fun _ _ => ⟨.inl rfl, .inl rfl⟩

theorem steps_collectPoints {protectedId : Option String} :
    (collectPoints protectedId).Steps RecoveryChange :=
  steps_recoveryModify fun _ _ => ⟨.inl rfl, .inl rfl⟩

theorem steps_quiesce {units : List RecoveryUnit} : (quiesce units).Steps RecoveryChange := by
  refine .bind (.each fun unit => ?_) fun _ => .bind steps_requireInactive fun _ =>
    .bind (.each fun unit => ?_) fun _ => steps_requireInactive
  · split
    · exact steps_stopUnit
    · trivial
  · split
    · exact steps_stopUnit
    · refine .bind steps_recoveryAsk fun running => ?_
      split
      · exact steps_stopUnit
      · trivial

theorem steps_createPoint : createPoint.Steps RecoveryChange := by
  refine .bind steps_collectPoints fun _ => steps_recoveryStep fun answer s id t made => ?_
  split at made
  · cases made
  · cases made
    exact ⟨.inl rfl, .inl rfl⟩

theorem steps_deployPoint {journal : RecoveryJournal} {id : String} :
    (deployPoint journal id).Steps RecoveryChange :=
  .bind steps_saveRecoveryJournal fun _ =>
    .bind (.mark fun _ => ⟨.inl rfl, .inr (.inl ⟨id, rfl⟩)⟩) fun _ =>
    .bind (steps_recoveryModify fun _ _ => ⟨.inl rfl, .inl rfl⟩) fun _ =>
    .mark fun _ => ⟨.inl rfl, .inr (.inr (.inl ⟨id, rfl⟩))⟩

theorem steps_restoreQuiesced {units : List RecoveryUnit} {point : Option String} {completed : Bool} :
    (restoreQuiesced units point completed).Steps RecoveryChange := by
  refine .bind steps_restoreUnits fun _ => ?_
  split
  · refine .bind steps_removeRecoveryJournal fun _ => ?_
    split
    · exact .bind (.attempt steps_collectPoints) fun _ => trivial
    · trivial
  · trivial

theorem steps_deployQuiesced {journal : RecoveryJournal} :
    (deployQuiesced journal).Steps RecoveryChange := by
  refine .bind (.outcome (.bind steps_quiesce fun _ => steps_createPoint)) fun prepared => ?_
  cases prepared with
  | error error => exact .bind steps_restoreQuiesced fun _ => trivial
  | ok id =>
    refine .bind (.outcome steps_deployPoint) fun deployed => ?_
    cases deployed with
    | error error => exact .bind steps_restoreQuiesced fun _ => trivial
    | ok value => exact steps_restoreQuiesced

theorem steps_settlePrevious : settlePrevious.Steps RecoveryChange := by
  refine .bind steps_recoveryAsk fun found => ?_
  cases found with
  | none => trivial
  | some previous =>
    exact .bind steps_recoveryAsk fun _ => .bind .require fun _ => .bind steps_restoreUnits fun _ =>
      .bind .require fun _ => steps_removeRecoveryJournal

theorem steps_recoveryCommand (command : RecoveryCommand) : command.process.Steps RecoveryChange := by
  cases command with
  | withQuiescedRecovery preflight =>
    refine .bind steps_recoveryAsk fun _ => .bind steps_settlePrevious fun _ => .bind ?_ fun _ =>
      .bind steps_filterActive fun _ => .bind steps_recoveryAsk fun _ =>
      .bind steps_saveRecoveryJournal fun _ => steps_deployQuiesced
    split
    · exact steps_recoveryAsk
    · trivial
  | acknowledge id =>
    refine .bind steps_recoveryAsk fun _ => .bind steps_recoveryAsk fun found => ?_
    cases found with
    | none => trivial
    | some pending =>
      exact .bind .require fun _ => .bind steps_recoveryAsk fun _ => .bind .require fun _ =>
        .bind steps_restoreUnits fun _ => steps_removeRecoveryJournal
  | gc =>
    refine .bind steps_recoveryAsk fun _ => .bind steps_recoveryAsk fun found => ?_
    cases found with
    | none => exact steps_collectPoints
    | some pending => trivial

end Steps

section Runs

/-- What every command promises. -/
def recoveryPromise : Service.Promise RecoverySite RecoveryCommand RecoveryHost RecoveryError Unit where
  Inv := RecoveryHost.Named
  At := RecoverySite.Meets
  Returns _ _ _ s := s.Named
  Raises _ _ error s := RecoveryFailed error s
  at_inv := And.left
  returns_inv := id
  raises_inv := And.left

theorem wp_recoveryCommand (command : RecoveryCommand) {s : RecoveryHost} (named : s.Named) :
    command.process.wp Process.anyAnswer (fun _ t => t.Named) RecoveryFailed RecoverySite.Meets s := by
  cases command with
  | withQuiescedRecovery preflight => exact wp_withQuiescedRecovery named
  | acknowledge id => exact wp_acknowledgePoint named
  | gc => exact wp_collectRecovery named

/-- What happens between the commands keeps the invariant. -/
theorem RecoveryHost.Named.drift {s : RecoveryHost} (named : s.Named) (change : RecoveryDrift) :
    (change.apply s).Named := by
  cases change with
  | units active => exact named.kept ⟨rfl, rfl, rfl⟩
  | powerLoss taken =>
    intro id deployed
    obtain ⟨there, journal, settled, names⟩ := named id deployed
    refine ⟨there, journal, ?_, names⟩
    show s.journal.lose taken = _
    rw [settled]
    cases taken <;> rfl

/-- A host with the command that runs on it. -/
abbrev RecoveryMachine : Type :=
  Host RecoveryCommand RecoverySite RecoveryHost RecoveryAnswer RecoveryError Unit

/-- What happens to a host. -/
abbrev RecoveryEvent : Type :=
  HostEvent RecoveryCommand RecoverySite RecoveryAnswer RecoveryError Unit RecoveryDrift

/-- What holds of a host that is reached. `recorded` and `stopped`: a journal that is written where there
was none lists the active units, and nothing that is active is stopped unless a durable journal lists it.
`rewritten` and `removed`: the list stays as it is until all of its units are active again. `started`: no
other unit is started. `reported`: an error of a restoration leaves the journal and names the units that
are missing. `deployed`: a deployment begins on a quiet host with a verified point that a durable journal
names. `named` and `settled`: as long as it is neither completed nor acknowledged, its point exists and the
journal names it. -/
structure RecoveryHolds (host : RecoveryMachine) : Prop where
  recorded : ∀ value reply target,
    recoveryService.Step host (.advance (.renameJournal value) reply) target →
    host.shared.journal.visible = none → value.units = RecoveryUnit.units.filter host.shared.active
  stopped : ∀ unit reply target, recoveryService.Step host (.advance (.stop unit) reply) target →
    host.shared.active unit = true →
    ∃ journal, host.shared.journal = .settled (some journal) ∧ unit ∈ journal.units
  rewritten : ∀ site reply target journal value,
    recoveryService.Step host (.advance site reply) target →
    host.shared.journal.visible = some journal → target.shared.journal.visible = some value →
    value.units = journal.units
  removed : ∀ site reply target journal, recoveryService.Step host (.advance site reply) target →
    host.shared.journal.visible = some journal → target.shared.journal.visible = none →
    ∀ unit ∈ journal.units, host.shared.active unit = true
  started : ∀ unit reply target, recoveryService.Step host (.advance (.start unit) reply) target →
    ∃ journal, host.shared.journal.visible = some journal ∧ unit ∈ journal.units
  reported : ∀ command units target,
    recoveryService.Step host (.finish command (.error (.couldNotRestore units))) target →
    ∃ journal, host.shared.journal.visible = some journal ∧
      ∀ unit ∈ journal.units, host.shared.active unit = true ∨ unit ∈ units
  deployed : ∀ id reply target, recoveryService.Step host (.advance (.action id) reply) target →
    host.shared.Quiet ∧ id ∈ host.shared.points ∧
      ∃ journal, host.shared.journal = .settled (some journal) ∧ journal.pointId = some id
  named : ∀ id, host.shared.deployment = some id → id ∈ host.shared.points ∧
    ∃ journal, host.shared.journal = .settled (some journal) ∧ journal.pointId = some id
  settled : ∀ site reply target id, recoveryService.Step host (.advance site reply) target →
    host.shared.deployment = some id → target.shared.deployment = some id ∨ site = .complete id ∨
      site = .unlinkJournal (.acknowledge id)

theorem recoveryService_governed {origin host : RecoveryMachine} {events : List RecoveryEvent}
    (init : recoveryService.machine.Init origin) (run : Run recoveryService.machine origin events host) :
    Service.Governed Process.anyAnswer recoveryPromise host := by
  refine Service.governed ?_ (fun command s held => wp_recoveryCommand command held) ?_ init run ?_
  · exact fun s started => named_of_none started.2
  · rintro change s t held moved
    cases moved
    exact held.drift change
  · intro event _
    cases event <;> trivial

/-- In every run of the commands, with an error or a crash at any step, every host that is reached is as
`RecoveryHolds` says. -/
theorem quiesced_recovery {origin host : RecoveryMachine} {events : List RecoveryEvent}
    (init : recoveryService.machine.Init origin) (run : Run recoveryService.machine origin events host) :
    RecoveryHolds host := by
  have governed := recoveryService_governed init run
  have named : host.shared.Named := governed.inv
  have changes : ∀ {site reply} {target : RecoveryMachine},
      recoveryService.Step host (.advance site reply) target →
        RecoveryChange site host.shared target.shared :=
    fun taken => Service.steps_advance steps_recoveryCommand init run taken
  refine ⟨?_, ?_, ?_, ?_, ?_, ?_, ?_, named, ?_⟩
  · intro value reply target taken absent
    obtain ⟨_, ⟨_, units, _⟩ | ⟨journal, seen, _⟩⟩ := (governed.at taken).2
    · exact units
    · cases absent.symm.trans seen
  · intro unit reply target taken running
    obtain ⟨journal, settled, listed⟩ := (governed.at taken).2
    exact ⟨journal, settled, listed running⟩
  · intro site reply target journal value taken found seen
    rcases (changes taken).journal with same | ⟨other, rfl, written⟩ | ⟨removal, _, gone⟩
    · rw [same, found] at seen
      cases seen
      rfl
    · obtain rfl : value = other := Option.some.inj (seen.symm.trans written)
      obtain ⟨_, ⟨absent, _, _⟩ | ⟨known, shown, _, only⟩⟩ := (governed.at taken).2
      · cases absent.symm.trans found
      · cases found.symm.trans shown
        rw [only]
    · cases gone.symm.trans seen
  · intro site reply target journal taken found gone
    rcases (changes taken).journal with same | ⟨other, _, written⟩ | ⟨removal, rfl, _⟩
    · cases (same.symm.trans gone).symm.trans found
    · cases gone.symm.trans written
    · exact (governed.at taken).2.1 journal found
  · exact fun unit reply target taken => (governed.at taken).2
  · intro command units target taken
    obtain ⟨session, _, _, _, reported⟩ := governed.raised taken
    exact reported units rfl
  · intro id reply target taken
    have needs := (governed.at taken).2
    exact ⟨needs.1, named id needs.2⟩
  · intro site reply target id taken deployed
    rcases (changes taken).deployment with same | ⟨other, rfl⟩ | ⟨other, rfl⟩ | ⟨other, rfl⟩
    · exact .inl (same.trans deployed)
    · cases (governed.at taken).2.2.1.symm.trans deployed
    · have begun := (governed.at taken).2
      cases begun.symm.trans deployed
      exact .inr (.inl rfl)
    · obtain ⟨_, journal, settled, names⟩ := named id deployed
      have acknowledged := (governed.at taken).2.2 journal (by rw [settled]; rfl)
      cases names.symm.trans acknowledged
      exact .inr (.inr rfl)

/-- A host on which two services and a timer are active. -/
def updateHost : RecoveryHost where
  active unit := [.api, .worker, .cleanupTimer].contains unit
  journal := .settled none
  points := []
  deployment := none

/-- Its deployment is killed right after it began: its point stays named. -/
theorem quiesced_recovery_killed :
    ∃ origin events, ∃ host : RecoveryMachine,
      recoveryService.machine.Init origin ∧ Run recoveryService.machine origin events host ∧
      host.shared.deployment = some "rp-1789430400000-aaaaaaaaaaaa" ∧ RecoveryHolds host := by
  have init : recoveryService.machine.Init ⟨updateHost, none⟩ := ⟨⟨rfl, rfl⟩, rfl⟩
  have run := Service.run_killed recoveryService updateHost (.withQuiescedRecovery false)
    (List.replicate 65 (.done { owner := some ⟨999, "123", "boot"⟩, point := "rp-1789430400000-aaaaaaaaaaaa" }))
  exact ⟨_, _, _, init, run, rfl, quiesced_recovery init run⟩

end Runs

end LatexRenderer
