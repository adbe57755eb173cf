import LatexRenderer.Deploy.InstallationRuns

/-! # The installation transaction over whole runs

The promises of the calls are carried to every run of the host, with an error or a crash at any step and
power losses between calls. Which steps change the journal, the slots, the keys and the owner at all is
said once, by `InstallationChange`, and holds of every step of every call.
-/

namespace LatexRenderer

open Machine ServerInstallStore

/-- The journal is removed, a slot written, the owner and the keys made by their own steps alone. -/
structure InstallationChange (site : InstallationSite) (s t : InstallationHost) : Prop where
  journal : t.journal.entry.visible = none →
    s.journal.entry.visible = none ∨ ∃ origin, site = .unlinkJournal origin
  slot : ∀ name, (t.slot name).entry.visible = (s.slot name).entry.visible ∨
    (∃ contents, site = .renameSlot name contents ∧ (t.slot name).entry.visible = some contents) ∨
    (site = .unlinkSlot name ∧ (t.slot name).entry.visible = none)
  owner : t.owner = s.owner ∨ site = .createOwner
  keys : t.keys = s.keys ∨ site = .ensureSecrets

section Steps

theorem installationChange_refl {site : InstallationSite} (s : InstallationHost) :
    InstallationChange site s s :=
  ⟨.inl, fun _ => .inl rfl, .inl rfl, .inl rfl⟩

theorem installationChange_slot {site : InstallationSite} {name : String} {s : InstallationHost}
    {file : AtomicFile (Option String)}
    (moved : file.entry.visible = (s.slot name).entry.visible ∨
      (∃ contents, site = .renameSlot name contents ∧ file.entry.visible = some contents) ∨
      (site = .unlinkSlot name ∧ file.entry.visible = none)) :
    InstallationChange site s ((slotFile name).set s file) := by
  refine ⟨.inl, fun other => ?_, .inl rfl, .inl rfl⟩
  by_cases same : other = name
  · subst same
    have here : ((slotFile other).set s file).slot other = file := (slotFile other).get_set s file
    rw [here]
    exact moved
  · exact .inl (congrArg (fun file : AtomicFile (Option String) => file.entry.visible) (if_neg same))

theorem installationChange_journal {site : InstallationSite} {s : InstallationHost}
    {file : AtomicFile (Option InstallationJournal)}
    (moved : file.entry.visible = none →
      s.journal.entry.visible = none ∨ ∃ origin, site = .unlinkJournal origin) :
    InstallationChange site s (installationJournalFile.set s file) :=
  ⟨moved, fun _ => .inl rfl, .inl rfl, .inl rfl⟩

theorem steps_installationCall {site : InstallationSite} :
    (installationCall site).Steps InstallationChange :=
  .ask installationChange_refl

theorem steps_write {name : String} {contents : Option String} :
    (write name contents).Steps InstallationChange := by
  refine .bind (.ask installationChange_refl) fun _ => ?_
  cases contents with
  | none =>
    refine .unlinkFile (fun _ => installationChange_refl) (fun s file gone => ?_) fun s => ?_
    · exact installationChange_slot (.inr (.inr ⟨rfl, congrArg Durable.visible gone⟩))
    · exact installationChange_slot (.inl rfl)
  | some text =>
    refine .bind (.bind (.ask installationChange_refl) fun stale => ?_) fun _ => ?_
    · split
      · exact .modify installationChange_refl fun s => installationChange_slot (.inl rfl)
      · trivial
    · refine .replaceFile (fun _ => installationChange_refl) (fun s file same => ?_) (fun s => ?_) fun s => ?_
      · exact installationChange_slot (.inl (congrArg Durable.visible same))
      · exact installationChange_slot (.inr (.inl ⟨text, rfl, rfl⟩))
      · exact installationChange_slot (.inl rfl)

theorem steps_saveInstallationJournal {origin : InstallationOrigin} {value : InstallationJournal} :
    (saveJournal origin value).Steps InstallationChange := by
  refine .bind steps_installationCall fun _ => .bind .require fun _ =>
    .bind (.ask installationChange_refl) fun _ => .bind ?_ fun _ => ?_
  · refine .bind (.ask installationChange_refl) fun stale => ?_
    split
    · exact .modify installationChange_refl fun s => installationChange_journal .inl
    · trivial
  · refine .replaceFile (fun _ => installationChange_refl) (fun s file same => ?_) (fun s => ?_) fun s => ?_
    · exact installationChange_journal fun gone =>
        .inl ((congrArg Durable.visible same).symm.trans gone)
    · exact installationChange_journal fun never => by cases never
    · exact installationChange_journal .inl

theorem steps_clearInstallation {origin : InstallationOrigin} :
    (clear origin).Steps InstallationChange := by
  refine .bind steps_installationCall fun _ => .unlinkFile (fun _ => installationChange_refl)
    (fun s file _ => ?_) fun s => ?_
  · exact installationChange_journal fun _ => .inr ⟨origin, rfl⟩
  · exact installationChange_journal .inl

theorem steps_snapshotFiles {names : List String} : (snapshotFiles names).Steps InstallationChange := by
  induction names with
  | nil => trivial
  | cons name rest ih =>
    exact .bind (.ask installationChange_refl) fun _ => .bind ih fun _ => trivial

theorem steps_readJournal : journal.Steps InstallationChange :=
  .bind steps_installationCall fun _ => .ask installationChange_refl

theorem steps_installationUnits {units : List String} {expected : Bool} {error : InstallationError} :
    (checkInstallationUnits units expected error).Steps InstallationChange :=
  .each fun _ => .bind (.ask installationChange_refl) fun _ => .require

theorem steps_stopUnits {units : List String} : (stopUnits units).Steps InstallationChange :=
  .bind (.each fun _ => steps_installationCall) fun _ => steps_installationUnits

theorem steps_finish {origin : InstallationOrigin} {value : InstallationJournal} :
    (finish origin value).Steps InstallationChange := by
  refine .bind ?_ fun _ => ?_
  · exact .bind steps_stopUnits fun _ => .bind steps_saveInstallationJournal fun _ =>
      .bind (.each fun _ => steps_write) fun _ => .bind steps_installationCall fun _ =>
      .bind steps_installationCall fun _ => .bind (.each fun _ => steps_installationCall) fun _ =>
      .bind steps_installationUnits fun _ => .bind steps_installationCall fun _ =>
      .bind steps_installationUnits fun _ => .bind steps_snapshotFiles fun _ => .require
  · exact .bind steps_saveInstallationJournal fun _ => .bind steps_installationCall fun _ =>
      steps_clearInstallation

theorem steps_quiesceUnits {units : List String} {beforeStart : Bool} :
    (quiesceUnits units beforeStart).Steps InstallationChange := by
  unfold quiesceUnits
  split
  · exact steps_installationUnits
  · exact steps_stopUnits

theorem steps_recoverInstallation {beforeStart : Bool} :
    (recoverInstallation beforeStart).Steps InstallationChange := by
  refine .bind steps_readJournal fun pending => ?_
  cases pending with
  | none => trivial
  | some value =>
    refine .bind .require fun _ => .bind (.bind steps_snapshotFiles fun _ => .require) fun _ =>
      .bind (.ask installationChange_refl) fun owner => .bind .require fun _ => ?_
    split
    · refine .bind steps_snapshotFiles fun _ => .bind .require fun _ => ?_
      split
      · exact .bind steps_installationCall fun _ => .bind steps_clearInstallation fun _ => trivial
      · exact .bind steps_finish fun _ => trivial
    · split
      · refine .bind .require fun _ => .bind steps_quiesceUnits fun _ => .bind (.each fun _ => steps_write)
          fun _ => .bind steps_installationCall fun _ => .bind steps_installationCall fun _ =>
          .bind ?_ fun _ => .bind steps_snapshotFiles fun _ => .bind .require fun _ =>
          .bind steps_clearInstallation fun _ => trivial
        split
        · trivial
        · exact .bind (.each fun _ => steps_installationCall) fun _ => .bind steps_installationUnits
            fun _ => .bind steps_installationCall fun _ => steps_installationUnits
      · unfold recoverInitial
        split
        · split
          · exact .bind steps_installationUnits fun _ => .bind (.each fun _ => steps_write) fun _ =>
              .bind steps_installationCall fun _ => .bind steps_installationCall fun _ => trivial
          · exact .bind steps_finish fun _ => trivial
        · exact .bind .require fun _ => .bind steps_quiesceUnits fun _ =>
            .bind (.each fun _ => steps_write) fun _ => trivial

theorem steps_prepareInstallation {request : InstallationRequest} :
    (prepareInstallation request).Steps InstallationChange := by
  refine .bind ?_ fun _ => .bind .require fun _ => .bind steps_installationCall fun _ =>
    .bind steps_snapshotFiles fun _ => .bind steps_installationCall fun _ =>
    .bind steps_readJournal fun pending => .bind .require fun _ => .bind ?_ fun _ =>
    .bind steps_saveInstallationJournal fun _ => trivial
  · refine .bind steps_readJournal fun pending => .bind ?_ fun _ => .bind steps_installationCall fun _ =>
      steps_snapshotFiles
    cases pending with
    | none => trivial
    | some value =>
      exact .bind .require fun _ => .bind (.ask installationChange_refl) fun _ => .require
  · cases pending with
    | some value => trivial
    | none =>
      refine .bind (.act installationChange_refl fun answer s value t made => ?_) fun _ =>
        .bind .require fun _ => trivial
      split at made
      · cases made
      · cases made
        exact ⟨.inl, fun _ => .inl rfl, .inl rfl, .inl rfl⟩

theorem steps_provision {value : InstallationJournal} :
    (provision value).Steps InstallationChange := by
  refine .bind steps_stopUnits fun _ => .bind ?_ fun _ => .bind (.ask installationChange_refl) fun _ =>
    .bind .require fun _ => .bind steps_saveInstallationJournal fun _ => steps_finish
  split
  · refine .bind (.modify installationChange_refl fun s => ⟨.inl, fun _ => .inl rfl, .inl rfl, .inr rfl⟩)
      fun _ => .act installationChange_refl fun answer s _ t made => ?_
    cases owner : s.owner with
    | none =>
      simp only [owner, Except.ok.injEq, Prod.mk.injEq, true_and] at made
      exact made ▸ ⟨.inl, fun _ => .inl rfl, .inr rfl, .inl rfl⟩
    | some creator => simp [owner] at made
  · trivial

theorem steps_installationAction (action : InstallationAction) :
    action.process.Steps InstallationChange := by
  cases action with
  | applyInstallation request =>
    refine .bind (.bind steps_prepareInstallation fun value => .handle steps_provision fun _ => ?_)
      fun _ => trivial
    unfold provisionFailed
    split
    · exact .bind (.handle (.bind steps_recoverInstallation fun _ => trivial) fun _ => trivial)
        fun _ => trivial
    · trivial
  | recoverInstallation beforeStart => exact .bind steps_recoverInstallation fun _ => trivial

end Steps

/-- A power loss takes back what it may, and leaves a coherent host. -/
theorem InstallationHost.Coherent.lose {s : InstallationHost} (coherent : s.Coherent)
    (loss : InstallationPowerLoss) : (s.lose loss).Coherent := by
  have entry : (s.lose loss).journal.entry = s.journal.entry.lose loss.journal := rfl
  have settled : ∀ name, (s.lose loss).Settled name := fun _ => rfl
  have kept : ∀ value, (s.journal.entry.lose loss.journal).visible = some value →
      s.journal.entry.visible = some value ∨ s.journal.entry.stored = some value := by
    intro value found
    cases taken : loss.journal with
    | false => exact .inl (by simpa [Durable.lose, taken] using found)
    | true => exact .inr (by simpa [Durable.lose, taken] using found)
  have covered : ∀ value, (s.journal.entry.lose loss.journal).visible = some value →
      (s.lose loss).Covered value := by
    intro value found name concerns
    have before := (kept value found).elim (coherent.visible value) (coherent.stored value)
    exact (before name concerns).lose (loss.slot name)
  refine ⟨covered, covered, fun name _ => settled name, fun value found => .inl ?_, fun value found => ?_,
    coherent.creator⟩
  · exact ⟨value, found, value.same_refl⟩
  · have found : (s.journal.entry.lose loss.journal).visible = some value := found.elim id id
    exact coherent.drawn value (kept value found)

section Runs

/-- What a call that fails leaves: an ingress apply that reports the previous configuration has it. -/
def InstallationAction.Reported (action : InstallationAction) (error : InstallationError)
    (s : InstallationHost) : Prop :=
  match action with
  | .applyInstallation request =>
    error = .previousConfigurationRestored → s.Holds request.base ∧ s.journal.entry = .settled none
  | .recoverInstallation _ => True

/-- What a call that returns has achieved. -/
def InstallationAction.Achieved (action : InstallationAction) (began : InstallationHost)
    (result : InstallationResult) (s : InstallationHost) : Prop :=
  match action, result with
  | .applyInstallation request, .installed => s.Installed request
  | .recoverInstallation _, .recovered recovery => recovery.Achieved began s
  | _, _ => False

/-- What every call of the adapter promises. -/
def installationPromise : Service.Promise InstallationSite InstallationAction InstallationHost
    InstallationError InstallationResult where
  Inv := InstallationHost.Coherent
  At := InstallationSite.Meets
  Returns action began result s := s.Coherent ∧ action.Achieved began result s
  Raises action _ error s := s.Coherent ∧ action.Reported error s
  at_inv := And.left
  returns_inv := And.left
  raises_inv := And.left

theorem wp_installationAction (action : InstallationAction) {s : InstallationHost}
    (coherent : s.Coherent) :
    action.process.wp cleanly (fun result t => t.Coherent ∧ action.Achieved s result t)
      (fun error t => t.Coherent ∧ action.Reported error t) InstallationSite.Meets s := by
  cases action with
  | applyInstallation request =>
    refine Process.wp_bind.mpr ((wp_applyInstallation coherent).mono ?_ (fun _ _ held => held)
      fun _ _ held => held)
    exact fun _ t held => held
  | recoverInstallation beforeStart =>
    refine Process.wp_bind.mpr ((wp_recoverInstallation coherent).mono ?_
      (fun _ _ failed => ⟨failed, trivial⟩) fun _ _ held => held)
    exact fun recovery t held => held

/-- A host with the call that runs on it. -/
abbrev InstallationMachine : Type :=
  Host InstallationAction InstallationSite InstallationHost InstallationAnswer InstallationError
    InstallationResult

/-- What happens to a host. -/
abbrev InstallationEvent : Type :=
  HostEvent InstallationAction InstallationSite InstallationAnswer InstallationError InstallationResult
    InstallationPowerLoss

/-- What holds of a host that is reached: each slot of a journal that is there, or that a power loss may
bring back, has its contents before or after; keys, owner and slots change under a durable journal alone,
and slots to the contents after once the owner of an initial installation exists; the journal is removed
only over the contents after of a committed transaction or over the contents before of an ingress change;
and what a call reports is true. -/
structure InstallationHolds (host : InstallationMachine) : Prop where
  slots : ∀ value, host.shared.journal.entry.visible = some value ∨
    host.shared.journal.entry.stored = some value → host.shared.Covered value
  durable : ∀ site reply target, installationService.Step host (.advance site reply) target →
    target.shared.keys ≠ host.shared.keys ∨ target.shared.owner ≠ host.shared.owner ∨
      (∃ name, (target.shared.slot name).entry.visible ≠ (host.shared.slot name).entry.visible) →
    ∃ value, host.shared.journal.entry.visible = some value ∧ host.shared.Durably value
  forward : ∀ site reply target value name,
    installationService.Step host (.advance site reply) target →
    host.shared.journal.entry.visible = some value → value.kind = .initial →
    host.shared.owner = some value.id →
    (target.shared.slot name).entry.visible ≠ (host.shared.slot name).entry.visible →
    (name, (target.shared.slot name).entry.visible) ∈ value.after
  cleared : ∀ site reply target value, installationService.Step host (.advance site reply) target →
    host.shared.journal.entry.visible = some value → target.shared.journal.entry.visible = none →
    value.phase = .committed ∧ host.shared.Holds value.after ∨
      value.kind = .ingress ∧ host.shared.Holds value.before
  installed : ∀ request result target,
    installationService.Step host (.finish (.applyInstallation request) (.ok result)) target →
    result = .installed ∧ host.shared.Installed request
  restored : ∀ request target,
    installationService.Step host
      (.finish (.applyInstallation request) (.error .previousConfigurationRestored)) target →
    host.shared.Holds request.base ∧ host.shared.journal.entry = .settled none
  recovered : ∀ beforeStart result target,
    installationService.Step host (.finish (.recoverInstallation beforeStart) (.ok result)) target →
    ∃ session recovery, host.running = some session ∧ result = .recovered recovery ∧
      recovery.Achieved session.began host.shared

theorem installationService_governed {origin host : InstallationMachine} {events : List InstallationEvent}
    (init : installationService.machine.Init origin)
    (run : Run installationService.machine origin events host)
    (clean : ∀ event ∈ events, Service.Allows cleanly event) :
    Service.Governed cleanly installationPromise host := by
  refine Service.governed ?_ (fun action s held => wp_installationAction action held) ?_ init run clean
  · rintro s ⟨empty, settled, drawn⟩
    refine ⟨fun value found => ?_, fun value found => ?_, fun name _ => settled name,
      fun value found => ?_, fun value found => ?_, fun id made => drawn id made⟩
    · simp [empty] at found
    · simp [empty] at found
    · simp [empty] at found
    · simp [empty] at found
  · rintro loss s t held moved
    cases moved
    exact held.lose loss

/-- In every run in which no step fails after an ingress apply has committed its journal, with an error
or a crash at any other step and power losses between calls, every host that is reached is as
`InstallationHolds` says. -/
theorem installation_transaction {origin host : InstallationMachine} {events : List InstallationEvent}
    (init : installationService.machine.Init origin)
    (run : Run installationService.machine origin events host)
    (clean : ∀ event ∈ events, Service.Allows cleanly event) : InstallationHolds host := by
  have governed := installationService_governed init run clean
  have coherent : host.shared.Coherent := governed.inv
  have changes : ∀ {site reply} {target : InstallationMachine},
      installationService.Step host (.advance site reply) target →
        InstallationChange site host.shared target.shared :=
    fun taken => Service.steps_advance steps_installationAction init run taken
  -- a slot that changes is written under the condition of its step
  have writes : ∀ {site reply} {target : InstallationMachine} {name : String},
      installationService.Step host (.advance site reply) target →
      (target.shared.slot name).entry.visible ≠ (host.shared.slot name).entry.visible →
        InstallationSite.Needs.WritesSlot name (target.shared.slot name).entry.visible host.shared := by
    intro site reply target name taken differs
    have needs := (governed.at taken).2
    rcases (changes taken).slot name with same | ⟨contents, rfl, written⟩ | ⟨rfl, gone⟩
    · exact absurd same differs
    · rw [written]
      exact needs
    · rw [gone]
      exact needs
  refine ⟨?_, ?_, ?_, ?_, ?_, ?_, ?_⟩
  · rintro value (seen | kept)
    · exact coherent.visible value seen
    · exact coherent.stored value kept
  · intro site reply target taken changed
    have needs := (governed.at taken).2
    rcases changed with keys | owner | ⟨name, differs⟩
    · rcases (changes taken).keys with same | rfl
      · exact absurd same keys
      · exact needs
    · rcases (changes taken).owner with same | rfl
      · exact absurd same owner
      · exact needs
    · obtain ⟨value, found, _, durable | settled, _⟩ := writes taken differs
      · exact ⟨value, found, durable⟩
      · exact absurd (congrArg Durable.visible settled).symm differs
  · intro site reply target value name taken found initial ours differs
    obtain ⟨other, seen, _, _, after⟩ := writes taken differs
    cases found.symm.trans seen
    exact after initial ours
  · intro site reply target value taken found gone
    rcases (changes taken).journal gone with never | ⟨origin, rfl⟩
    · cases found.symm.trans never
    · exact (governed.at taken).2 value found
  · intro request result target taken
    obtain ⟨session, _, _, _, achieved⟩ := governed.returned taken
    cases result with
    | installed => exact ⟨rfl, achieved⟩
    | recovered recovery => exact achieved.elim
  · intro request target taken
    obtain ⟨session, _, _, _, reported⟩ := governed.raised taken
    exact reported rfl
  · intro beforeStart result target taken
    obtain ⟨session, running, _, _, achieved⟩ := governed.returned taken
    cases result with
    | installed => exact achieved.elim
    | recovered recovery => exact ⟨session, recovery, running, rfl, achieved⟩

/-- A host whose ingress is to change. -/
def gatewayHost : InstallationHost where
  supported := ["gateway"]
  slot _ := { entry := .settled (some "old") }
  journal := { entry := .settled none }
  owner := none
  keys := true
  drawn := []

theorem gatewayHost_init : installationService.Init gatewayHost :=
  ⟨rfl, fun _ => rfl, by simp [gatewayHost]⟩

/-- The approved change of its ingress. -/
def gatewayRequest : InstallationRequest :=
  ⟨.ingress, ["gateway"], [("gateway", some "old")], [("gateway", some "new")],
    ["latex-renderer-ingress.service"]⟩

/-- Answers to some steps while the unit is active, or is not. -/
def gatewayReplies (steps : Nat) (active : Bool) : List (Reply InstallationAnswer) :=
  List.replicate steps (.done ⟨active, .ours, "aaaaaaaaaaaaaaaaaaaaaaaaaaaaaaaaaaaaaaaaaaaaaaaa"⟩)

/-- A change whose process is killed right after the new file is in place. -/
theorem installation_transaction_killed :
    ∃ origin events, ∃ host : InstallationMachine,
      installationService.machine.Init origin ∧ Run installationService.machine origin events host ∧
      (host.shared.slot "gateway").entry.visible = some "new" ∧ InstallationHolds host := by
  have init : installationService.machine.Init ⟨gatewayHost, none⟩ := ⟨gatewayHost_init, rfl⟩
  have run := Service.run_killed installationService gatewayHost (.applyInstallation gatewayRequest)
    (gatewayReplies 16 true ++ gatewayReplies 21 false)
  refine ⟨_, _, _, init, run, rfl, installation_transaction init run fun event member => ?_⟩
  have clean : ∀ reply ∈ gatewayReplies 16 true ++ gatewayReplies 21 false, ∀ site, cleanly site reply := by
    intro reply listed site
    rcases List.mem_append.mp listed with listed | listed
    · rw [List.eq_of_mem_replicate listed]
      rfl
    · rw [List.eq_of_mem_replicate listed]
      rfl
  rcases List.mem_cons.mp member with rfl | member
  · trivial
  rcases List.mem_append.mp member with member | member
  · exact Service.allows_trace _ gatewayHost clean event member
  · rw [List.mem_singleton.mp member]
    trivial

/-- The state in which a call is after it was given some answers. -/
abbrev gatewayApply (replies : List (Reply InstallationAnswer)) :
    InstallationProcess InstallationResult × InstallationHost :=
  Service.exec (InstallationAction.applyInstallation gatewayRequest).process gatewayHost replies

/-- The units of the committed change cannot be enabled; all other steps succeed. -/
def unfinalizedReplies : List (Reply InstallationAnswer) :=
  gatewayReplies 16 true ++ gatewayReplies 24 false ++ gatewayReplies 11 true ++ [.refused] ++
    gatewayReplies 5 true ++ gatewayReplies 15 false ++ gatewayReplies 15 true

theorem gatewayApply_unfinalized_reports :
    (gatewayApply unfinalizedReplies).1 = .raise .previousConfigurationRestored := rfl

theorem gatewayApply_unfinalized_slot :
    ((gatewayApply unfinalizedReplies).2.slot "gateway").entry = .settled (some "new") := rfl

/-- When the units of a committed change cannot be enabled, the recovery goes forward, the new files stay,
and the call reports that the previous configuration was restored. -/
theorem installation_transaction_reports_wrongly :
    ¬ ∀ (origin host : InstallationMachine) (events : List InstallationEvent),
      installationService.machine.Init origin → Run installationService.machine origin events host →
        InstallationHolds host := by
  intro claimed
  let call : InstallationAction := .applyInstallation gatewayRequest
  have begun : installationService.Step ⟨gatewayHost, none⟩ (.begin call)
      ⟨gatewayHost, some ⟨call, gatewayHost, call.process⟩⟩ := .begin gatewayHost call
  have run := Run.cons begun
    (Service.run_exec installationService call.process gatewayHost call gatewayHost unfinalizedReplies)
  have holds := claimed _ _ _ ⟨gatewayHost_init, rfl⟩ run
  have taken : installationService.Step
      ⟨(gatewayApply unfinalizedReplies).2, some ⟨call, gatewayHost, (gatewayApply unfinalizedReplies).1⟩⟩
      (.finish call (.error .previousConfigurationRestored)) ⟨(gatewayApply unfinalizedReplies).2, none⟩ := by
    rw [gatewayApply_unfinalized_reports]
    exact .raised _ call gatewayHost InstallationError.previousConfigurationRestored
  have restored := (holds.restored gatewayRequest _ taken).1 ("gateway", some "old") List.mem_cons_self
  have differs := gatewayApply_unfinalized_slot.symm.trans restored
  exact absurd differs (by decide)

end Runs

end LatexRenderer
