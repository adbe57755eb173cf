import LatexRenderer.Client.FailedUpdate
import LatexRenderer.Client.ResumableCalls

/-! # Interrupted installations of the client

The installation directory and the state file in it cannot be replaced together. In runs in which no call is
killed between their renames, and no answer ends a call there, what is in the installation directory is always
managed, an installation stays in place, and the next installation is not refused as unmanaged.
-/

namespace LatexRenderer

open Machine

section Refusal

variable {paths : SetupPaths} {updating : Bool} {request : InstallRequest} {t : ClientDisk}

theorem raises_clientStep {site : ClientSite} {f : ClientAnswer → ClientDisk → Option ClientDisk} :
    (clientStep site f).Raises (· ≠ .unmanaged) := by
  refine .act (by decide) fun answer s error made => ?_
  split at made
  · cases made
    decide
  · cases made

theorem raises_read {α : Type} {site : ClientSite} {f : ClientAnswer → ClientDisk → α} :
    (Process.ask site fun answer disk => .ok (f answer disk) : ClientProcess α).Raises (· ≠ .unmanaged) :=
  .ask (by decide) fun _ _ _ never => (nomatch never)

theorem raises_clientCall {site : ClientSite} : (clientCall site).Raises (· ≠ .unmanaged) := raises_read

theorem raises_writeManagedState {writer : StateWriter} {state : ManagedSetupState} :
    (writeManagedState paths writer state).Raises (· ≠ .unmanaged) := by
  refine .bind (.act (by decide) fun answer s error made => ?_) fun token => .bind .probe fun existed =>
    .handle (.bind ?_ fun _ => .bind raises_clientStep fun _ => .bind ?_ fun _ => ?_) fun error held =>
    .bind (.bind raises_clientStep fun _ => ?_) fun _ => held
  · split at made
    · cases made
      decide
    · cases made
  · split
    · exact raises_clientStep
    · trivial
  · split
    · exact raises_clientCall
    · trivial
  · split
    · exact raises_clientStep
    · trivial
  · split
    · refine .bind .probe fun there => ?_
      split
      · trivial
      · refine .bind .probe fun aside => ?_
        split
        · exact raises_clientStep
        · trivial
    · trivial

theorem raises_repairSetup {skill mcp : Option SetupTarget} :
    (repairSetup paths updating skill mcp).Raises (· ≠ .unmanaged) := by
  refine .bind raises_read fun found => ?_
  split
  · exact fun same => nomatch same
  · exact fun same => nomatch same
  refine .bind .probe fun complete => .bind (.require (by decide)) fun _ =>
    .bind (.bind raises_clientCall fun _ => ?_) fun _ => .bind ?_ fun _ => .bind raises_read fun _ =>
    .bind raises_writeManagedState fun _ => raises_clientCall
  · split
    · exact raises_read
    · trivial
  · unfold repairSkills
    split
    · trivial
    · refine .bind (.ask (by decide) fun answer s error made => ?_) fun _ => raises_clientCall
      split at made
      · cases made
      · cases made
        decide

theorem raises_restoreClient : (restoreClient request).Raises (· ≠ .unmanaged) := by
  refine .bind .probe fun there => ?_
  split
  · exact .bind (.bind raises_clientStep fun _ => raises_clientStep) fun _ =>
      .bind raises_clientStep fun _ => raises_clientCall
  · trivial

theorem raises_placeClient : (placeClient request updating).Raises (· ≠ .unmanaged) := by
  refine .handle raises_clientStep fun error held => .bind raises_clientStep fun _ => .bind ?_ fun _ => held
  split
  · refine .bind .probe fun there => ?_
    split
    · trivial
    · exact raises_clientStep
  · trivial

theorem raises_replaceClient {previous : Option ManagedSetupState} :
    (replaceClient paths request updating previous).Raises (· ≠ .unmanaged) := by
  have settles : ∀ updating, (settleClient paths request updating previous).Raises (· ≠ .unmanaged) := fun _ =>
    .bind raises_writeManagedState fun _ => .bind raises_repairSetup fun _ => raises_clientCall
  have stages : (stageClient request).Raises (· ≠ .unmanaged) :=
    .bind raises_clientCall fun _ => .bind (.require (by decide)) fun _ => .bind raises_clientCall fun _ =>
      .bind raises_clientStep fun _ => .bind raises_clientStep fun _ => raises_clientStep
  refine .bind stages fun _ => ?_
  split
  · exact .handle (.bind raises_clientStep fun _ => .bind raises_placeClient fun _ => settles true)
      fun error held => .bind raises_restoreClient fun _ => held
  · exact .bind raises_placeClient fun _ => settles false

/-- The process is not refused for the installation that is in place. -/
abbrev Accepted {α : Type} (p : ClientProcess α) (s : ClientDisk) : Prop :=
  p.wp Process.anyAnswer (fun _ _ => True) (fun error _ => error ≠ .unmanaged) (fun _ _ => True) s

theorem accepted_of_raises {α : Type} {p : ClientProcess α} (only : p.Raises (· ≠ .unmanaged)) : Accepted p t :=
  (Process.wp_true.raises only).mono (fun _ _ held => held) (fun _ _ held => held.2) fun _ _ held => held

theorem accepted_installClient {previous : Option ManagedSetupState} :
    Accepted (installClient paths request updating previous) t := by
  refine Process.wp_bind.mpr ((accepted_of_raises raises_clientCall).mono (fun _ u _ => ?_) (fun _ _ held => held)
    fun _ _ held => held)
  refine Process.wp_bind.mpr (Process.wp_outcome.mpr ((accepted_of_raises raises_replaceClient).mono
    (fun _ v _ => ?_) (fun error v held => ?_) fun _ _ held => held))
  · exact accepted_of_raises (.bind raises_clientCall fun _ => trivial)
  · exact accepted_of_raises (.bind raises_clientCall fun _ => held)

theorem accepted_afterRead {existing : ManagedState} {there : Bool}
    (managed : there = true → existing.found ≠ none) : Accepted (do
      Process.require (¬ (there = true ∧ existing.found = none)) .unmanaged
      let complete ←
        (if existing.found.any fun state => state.archiveSha256 == request.distribution.sha256 then
          installComplete
        else pure false)
      if complete then do
        repairSetup paths false (some request.skillTarget) (some request.mcpTarget)
        clientCall .report
        pure .current
      else installClient paths request there existing.found : ClientProcess InstallAction) t := by
  have last : ∀ complete : Bool, Accepted (if complete then do
        repairSetup paths false (some request.skillTarget) (some request.mcpTarget)
        clientCall .report
        pure .current
      else installClient paths request there existing.found : ClientProcess InstallAction) t := by
    intro complete
    cases complete with
    | false => exact accepted_installClient
    | true => exact accepted_of_raises (.bind raises_repairSetup fun _ => .bind raises_clientCall fun _ => trivial)
  refine Process.wp_bind.mpr (Process.wp_require.mpr ⟨fun _ => ?_, fun refused => ?_⟩)
  · refine Process.wp_bind.mpr (Process.wp_ite.mpr ⟨fun _ => ?_, fun _ => last false⟩)
    exact Process.wp_probe trivial (last _) (last false)
  · exact absurd (fun both => managed both.1 both.2) refused

/-- An installation over what is managed is not refused. -/
theorem accepted_installDistribution (good : t.Good paths) : Accepted (installDistribution paths request) t := by
  refine Process.wp_bind.mpr (Process.wp_ofExcept.mpr ⟨fun _ _ => ?_, fun error failed => ?_⟩)
  · have reads : ∀ existing, existing = (t.install.map (ClientDirectory.managed paths)).getD .absent →
        t.install.isSome = true → existing.found ≠ none := by
      rintro _ rfl there
      obtain ⟨directory, installed⟩ := Option.isSome_iff_exists.mp there
      obtain ⟨state, found⟩ := good directory installed
      simp [installed, found, ManagedState.found]
    refine Process.wp_bind.mpr ⟨trivial, fun reply _ => ?_⟩
    cases reply with
    | refused => exact (by decide : ClientError.host ≠ .unmanaged)
    | lost answer => exact (by decide : ClientError.host ≠ .unmanaged)
    | done answer =>
      exact Process.wp_bind.mpr (Process.wp_probe trivial (accepted_afterRead (reads _ rfl))
        (accepted_afterRead fun never => nomatch never))
  · rintro rfl
    unfold checkDistribution at failed
    split at failed
    · cases failed
    split at failed
    · cases failed
    split at failed <;> cases failed

end Refusal

/-- In a run in which no call is killed in a stretch without an installation or its state file, and no answer
ends a call in one, every state between the calls has a managed installation in place or none, an
installation that was in place stays in place, nothing becomes a backup alone, and the next
`installDistribution` is not refused as unmanaged. -/
theorem interrupted_install {paths : SetupPaths}
    {origin between host : Host ClientOperation ClientSite ClientDisk ClientAnswer ClientError InstallAction}
    {earlier later : List (HostEvent ClientOperation ClientSite ClientAnswer ClientError InstallAction Empty)}
    (init : (clientService paths).machine.Init origin)
    (first : Run ((clientService paths).carefulMachine (fun site disk reply => ¬ strands site disk reply)
      fun site disk => ¬ exposes site disk) origin earlier between)
    (paused : between.running = none)
    (rest : Run ((clientService paths).carefulMachine (fun site disk reply => ¬ strands site disk reply)
      fun site disk => ¬ exposes site disk) between later host)
    (idle : host.running = none) :
    host.shared.Good paths ∧
      (host.shared.install = none → between.shared.install = none ∧ host.shared.backups = between.shared.backups) ∧
      ∀ request replies error after, Service.exec (installDistribution paths request) host.shared replies =
        (.raise error, after) → error ≠ .unmanaged := by
  have kept : ∀ {a b events}, a.running = none → a.shared.Good paths → a.shared.BackupsManaged paths →
      Run ((clientService paths).carefulMachine (fun site disk reply => ¬ strands site disk reply)
        fun site disk => ¬ exposes site disk) a events b → b.running = none → Resumable paths a.shared b.shared := by
    intro a b events resting good backups run stopped
    have calls : ∀ call s, Resumable paths a.shared s → Resumes paths a.shared ((clientService paths).program call)
        (fun _ => Resumable paths a.shared) (fun _ => Resumable paths a.shared) s :=
      fun _ _ resumable => careful_operation resumable
    have held : (resumePromise paths a.shared).Kept (fun site disk reply => ¬ strands site disk reply) b :=
      Service.careful_run calls (fun change => change.elim) resting ⟨good, fun absent => ⟨absent, rfl⟩, backups⟩ run
    unfold Service.CriticalPromise.Kept at held
    rw [stopped] at held
    exact held
  have middle := kept init.2 init.1.1 init.1.2 first paused
  have last := kept paused middle.good middle.backups rest idle
  refine ⟨last.good, last.kept, fun request replies error after ended => ?_⟩
  exact Service.exec_raises (K := ClientOperation) (D := Empty) (E := fun error _ => error ≠ .unmanaged) (accepted_installDistribution last.good)
    (Service.allows_trace _ _ fun _ _ _ => trivial) ended

section Examples

/-- Answers without an error. -/
def doneReplies (count : Nat) : List (Reply ClientAnswer) := List.replicate count (.done {})

/-- No installation. -/
def emptyDisk : ClientDisk := ⟨none, fun _ => none, fun _ => none⟩

theorem init_emptyDisk : (clientService examplePaths).machine.Init ⟨emptyDisk, none⟩ :=
  ⟨⟨fun _ never => (nomatch never), fun _ _ never => (nomatch never)⟩, rfl⟩

/-- The fresh installation of the example, whose distribution is valid. -/
def freshExample : ClientProcess InstallAction := do
  let existing ← readManagedState examplePaths
  let there ← installExists .lookInstall
  Process.require (¬ (there = true ∧ existing.found = none)) .unmanaged
  let complete ←
    (if existing.found.any fun state => state.archiveSha256 == exampleUpdate.distribution.sha256 then
      installComplete
    else pure false)
  if complete then do
    repairSetup examplePaths false (some exampleUpdate.skillTarget) (some exampleUpdate.mcpTarget)
    clientCall .report
    pure .current
  else installClient examplePaths exampleUpdate there existing.found

theorem installDistribution_example : installDistribution examplePaths exampleUpdate = freshExample := by
  have checked : checkDistribution exampleUpdate.distribution = .ok () := by decide
  unfold installDistribution
  rw [checked]
  rfl

/-- The host after a fresh installation was killed with its first state file in place. -/
def installedExample : ClientDisk := (Service.exec freshExample emptyDisk (doneReplies 12)).2

theorem run_installedExample : Run ((clientService examplePaths).carefulMachine
    (fun site disk reply => ¬ strands site disk reply) fun site disk => ¬ exposes site disk) ⟨emptyDisk, none⟩
    (.begin (.install exampleUpdate) :: (Service.trace (installDistribution examplePaths exampleUpdate) emptyDisk
      (doneReplies 12) ++ [.crash])) ⟨installedExample, none⟩ := by
  have ran : (Service.exec (installDistribution examplePaths exampleUpdate) emptyDisk (doneReplies 12)).2 =
      installedExample := by rw [installDistribution_example, installedExample]
  rw [← ran]
  refine Service.careful_killed (clientService examplePaths) (.install exampleUpdate) ?_ ?_
  · show (installDistribution examplePaths exampleUpdate).heeds _ _ _
    rw [installDistribution_example]
    refine ⟨id, id, id, id, id, id, id, id, ?_, ?_, id, ?_, trivial⟩
    · exact fun ⟨_, never⟩ => nomatch never
    · exact fun failed => failed ⟨{}, rfl⟩
    · exact fun never => nomatch never
  · show Service.Interruptible _ (Service.exec (installDistribution examplePaths exampleUpdate) _ _).2
      (Service.exec (installDistribution examplePaths exampleUpdate) _ _).1
    rw [installDistribution_example]
    exact id

/-- A fresh installation that was killed with its first state file in place is managed. -/
theorem interrupted_install_installed : installedExample.Good examplePaths ∧
    (installedExample.install = none → emptyDisk.install = none ∧ installedExample.backups = emptyDisk.backups) ∧
    ∀ request replies error after, Service.exec (installDistribution examplePaths request) installedExample replies =
      (.raise error, after) → error ≠ .unmanaged :=
  interrupted_install init_emptyDisk (.nil _) rfl run_installedExample rfl

/-- The host after a fresh installation was killed before its first state file. -/
def strandedExample : ClientDisk := (Service.exec freshExample emptyDisk (doneReplies 9)).2

theorem strandedExample_refused : Service.exec freshExample strandedExample (doneReplies 2) =
    (.raise .unmanaged, strandedExample) := Prod.ext rfl rfl

/-- A fresh installation that is killed after the rename of its directory is refused the next time. -/
theorem interrupted_install_refused : ∃ (origin host : Host ClientOperation ClientSite ClientDisk ClientAnswer
      ClientError InstallAction) (events : List (HostEvent ClientOperation ClientSite ClientAnswer ClientError
      InstallAction Empty)) (request : InstallRequest) (replies : List (Reply ClientAnswer)) (after : ClientDisk),
    (clientService examplePaths).machine.Init origin ∧ Run (clientService examplePaths).machine origin events host ∧
      host.running = none ∧
      Service.exec (installDistribution examplePaths request) host.shared replies = (.raise .unmanaged, after) := by
  have killed := Service.run_killed (clientService examplePaths) emptyDisk (.install exampleUpdate) (doneReplies 9)
  refine ⟨⟨emptyDisk, none⟩, _, _, exampleUpdate, doneReplies 2, strandedExample, init_emptyDisk, killed, rfl, ?_⟩
  show Service.exec (installDistribution examplePaths exampleUpdate)
    (Service.exec (installDistribution examplePaths exampleUpdate) emptyDisk (doneReplies 9)).2 _ = _
  rw [installDistribution_example]
  exact strandedExample_refused

end Examples

end LatexRenderer
