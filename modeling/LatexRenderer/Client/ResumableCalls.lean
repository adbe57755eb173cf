import LatexRenderer.Client.StateWriters

/-! # The calls of the client can be resumed

Every call keeps `Resumable` wherever it may be killed and where it ends: the repair, the replacement with its
two handlers, which bring the old installation back from the backup, and the whole of `installDistribution`.
-/

namespace LatexRenderer

open Machine

section Calls

variable {paths : SetupPaths} {origin before t : ClientDisk} {updating : Bool} {request : InstallRequest}
  {skill mcp : Option SetupTarget}

theorem careful_reads {α : Type} {Q : α → ClientDisk → Prop} {site : ClientSite}
    {f : ClientAnswer → ClientDisk → Except ClientError α} (managed : before.BackupsManaged paths)
    (halted : Halted paths false before t) (reads : ∀ answer value, f answer t = .ok value → Q value t) :
    Resumes paths origin (Process.ask site f) Q (fun _ => Halted paths updating before) t :=
  .of_wp (Process.wp_ask (fun _ => halted.resumable managed (halted.standing rfl).missing)
    (fun _ => halted.mono) reads)

theorem careful_repairManaged {content : StateContent} {state : ManagedSetupState}
    (managed : before.BackupsManaged paths) (halted : Halted paths false before t)
    (found : normalizeState paths content = some state) :
    Resumes paths origin (repairManaged paths updating state skill mcp)
      (fun _ => Halted paths false before) (fun _ => Halted paths updating before) t := by
  have visit : Resumable paths origin t := halted.resumable managed (halted.standing rfl).missing
  have writes : ∀ (answer : ClientAnswer) (added : Bool), Resumes paths origin (do
      writeManagedState paths (.repairing updating) (repairedState paths state (skill.getD state.skillTarget)
        (mcp.getD state.mcpTarget) answer.managed added answer.now)
      clientCall .inspect : ClientProcess Unit) (fun _ => Halted paths false before)
      (fun _ => Halted paths updating before) t := fun answer added =>
    .bind ((careful_repairState managed halted (supportedState_repaired found)).mono
      (fun _ _ held => careful_reads managed held fun _ _ _ => held) fun _ _ held => held)
  have rest : ∀ added, Resumes paths origin (do
      repairSkills (skill.getD state.skillTarget)
      let answer ← Process.ask .repairMcp fun answer _ => .ok answer
      writeManagedState paths (.repairing updating) (repairedState paths state (skill.getD state.skillTarget)
        (mcp.getD state.mcpTarget) answer.managed added answer.now)
      clientCall .inspect : ClientProcess Unit) (fun _ => Halted paths false before)
      (fun _ => Halted paths updating before) t := by
    intro added
    have asks : Resumes paths origin (do
        let answer ← Process.ask .repairMcp fun answer _ => .ok answer
        writeManagedState paths (.repairing updating) (repairedState paths state
          (skill.getD state.skillTarget) (mcp.getD state.mcpTarget) answer.managed added answer.now)
        clientCall .inspect : ClientProcess Unit) (fun _ => Halted paths false before)
        (fun _ => Halted paths updating before) t :=
      .bind (careful_reads managed halted fun _ answer _ => writes answer added)
    refine .bind ?_
    unfold repairSkills
    split
    · exact asks
    · exact .bind (careful_reads managed halted fun _ _ _ => careful_reads managed halted fun _ _ _ => asks)
  refine .bind (.probe (fun _ => visit) (.bind ?_) fun _ _ _ => .bind ?_)
  · refine .of_wp (Process.wp_require.mpr ⟨fun _ => .bind ?_, fun _ => halted.mono⟩)
    refine .bind (careful_reads managed halted fun _ _ _ => ?_)
    split
    · exact careful_reads managed halted fun _ added _ => rest added
    · exact rest false
  · exact .of_wp (Process.wp_require.mpr ⟨fun never => (nomatch never), fun _ => halted.mono⟩)

theorem careful_repairSetup (managed : before.BackupsManaged paths) (halted : Halted paths false before t) :
    Resumes paths origin (repairSetup paths updating skill mcp)
      (fun _ => Halted paths false before) (fun _ => Halted paths updating before) t := by
  obtain ⟨directory, installed, state, found⟩ := halted.standing rfl
  refine .bind (careful_reads managed halted fun _ value same => ?_)
  simp only [installed, Option.map_some, Option.getD_some, found, Except.ok.injEq] at same
  subst same
  cases placed : directory.state with
  | none => simp [ClientDirectory.managed, placed] at found
  | some file =>
    have read : file.read paths = .managed state := by simpa [ClientDirectory.managed, placed] using found
    exact careful_repairManaged managed halted (StateFile.read_managed read)

/-- The state file, the repair and the report of a new installation. -/
theorem careful_settleClient {directory : ClientDirectory} {previous : Option ManagedSetupState}
    (checked : checkDistribution request.distribution = .ok ()) (managed : before.BackupsManaged paths)
    (backups : t.backups = before.backups) (installed : t.install = some directory)
    (bare : directory.state = none) (parts : ∀ token, directory.part token = none) :
    Resumes paths origin (settleClient paths request updating previous)
      (fun _ => Halted paths false before) (fun _ => Halted paths updating before) t :=
  .bind ((careful_installState managed backups installed bare parts (supportedState_base checked)).mono
    (fun _ _ held => .bind ((careful_repairSetup managed held).mono
      (fun _ _ later => careful_reads managed later fun _ _ _ => later) fun _ _ later => later))
    fun _ _ held => held)

/-- What the handler of an update is given: an installation is in place or in the backup. -/
structure Backed (paths : SetupPaths) (request : InstallRequest) (s : ClientDisk) : Prop where
  backups : s.BackupsManaged paths
  sane : s.stateMissing = false → Standing paths s
  either : Standing paths s ∨ (s.backups request.backup).isSome = true

theorem Standing.backed (standing : Standing paths t) (backups : t.BackupsManaged paths) :
    Backed paths request t := ⟨backups, fun _ => standing, .inl standing⟩

/-- An update has ended, and an installation is in place. -/
def Ended (paths : SetupPaths) (s : ClientDisk) : Prop := Standing paths s ∧ s.BackupsManaged paths

theorem Ended.resumable (ended : Ended paths t) : Resumable paths origin t := ended.1.resumable ended.2

theorem moveFromBackup_ended {u : ClientDisk} (backups : t.BackupsManaged paths)
    (moved : t.moveFromBackup request.backup = some u) : Ended paths u := by
  unfold ClientDisk.moveFromBackup at moved
  split at moved
  · next directory _ there =>
    cases moved
    refine ⟨⟨directory, rfl, backups _ _ there⟩, fun name other same => ?_⟩
    simp only [ClientDisk.setBackup] at same
    split at same
    · cases same
    · exact backups name other same
  · cases moved

theorem careful_restoreBackup {u : ClientDisk} (backups : u.BackupsManaged paths) (absent : u.install = none)
    (there : (u.backups request.backup).isSome = true) :
    Resumes paths origin (do
      clientStep .restoreBackup fun _ => ClientDisk.moveFromBackup request.backup
      clientCall .warn : ClientProcess Unit) (fun _ => Ended paths) (fun _ => Ended paths) u := by
  obtain ⟨directory, backup⟩ := Option.isSome_iff_exists.mp there
  have exposed : exposes .restoreBackup u := trivial
  refine .bind (careful_clientStep (fun closed => (closed exposed).elim) (fun fine => (fine rfl).elim)
    (fun _ _ _ none => ?_) fun _ v moved => ?_)
  · simp [ClientDisk.moveFromBackup, absent, backup] at none
  · have ended := moveFromBackup_ended backups moved
    exact ⟨fun _ => careful_clientCall (fun _ => ended.resumable) ended ended, fun _ => ended⟩

/-- What an interrupted removal has left of the state file is as it was. -/
theorem Backed.unlinked {answer : ClientAnswer} (backed : Backed paths request t)
    (there : (t.backups request.backup).isSome = true) :
    Backed paths request { t with
      install := t.install.map fun directory => { directory with
        complete := false
        state := if answer.keepsState then directory.state else none } } := by
  refine ⟨backed.backups, fun kept => ?_, .inr there⟩
  cases installed : t.install with
  | none => simp [ClientDisk.stateMissing, installed] at kept
  | some directory =>
    cases keeps : answer.keepsState with
    | false => simp [ClientDisk.stateMissing, installed, keeps] at kept
    | true =>
      have still : t.stateMissing = false := by simpa [ClientDisk.stateMissing, installed, keeps] using kept
      obtain ⟨other, same, managed⟩ := backed.sane still
      cases installed.symm.trans same
      exact ⟨_, rfl, managed⟩

theorem careful_bringBack (backed : Backed paths request t) (there : (t.backups request.backup).isSome = true) :
    Resumes paths origin (do
      removeInstall
      clientStep .restoreBackup fun _ => ClientDisk.moveFromBackup request.backup
      clientCall .warn : ClientProcess Unit) (fun _ => Ended paths) (fun _ => Ended paths) t := by
  have ended : ∀ {u}, Backed paths request u → ¬ u.stateMissing = true → Ended paths u :=
    fun held placed => ⟨held.sane (Bool.eq_false_iff.mpr placed), held.backups⟩
  refine .bind (.bind (careful_clientStep (fun closed => (ended backed closed).resumable)
    (fun fine => ended backed fine) (fun _ _ _ none => (nomatch none)) fun answer u moved => ?_))
  cases moved
  have held : Backed paths request { t with
      install := t.install.map fun directory => { directory with
        complete := false
        state := if answer.keepsState then directory.state else none } } := backed.unlinked there
  refine ⟨fun _ => ?_, fun fine => ?_⟩
  · refine careful_clientStep (fun closed => (ended held closed).resumable) (fun fine => ended held fine)
      (fun _ _ _ none => (nomatch none)) fun _ v moved => ?_
    cases moved
    exact ⟨fun _ => careful_restoreBackup backed.backups rfl there, fun fine => (fine trivial).elim⟩
  · obtain ⟨placed, kept⟩ := not_or.mp fine
    refine ended held fun missing => placed ?_
    cases installed : t.install with
    | none => simp [ClientDisk.stateMissing, installed]
    | some directory => simpa [ClientDisk.stateMissing, installed, Bool.not_eq_false _ ▸ kept] using missing

/-- The handler of an update brings an installation back into place. -/
theorem careful_restoreClient {error : ClientError} {Q : Unit → ClientDisk → Prop}
    (backed : Backed paths request t) :
    Resumes paths origin (do
      restoreClient request
      throw error : ClientProcess Unit) Q (fun _ => Ended paths) t := by
  have ended : ¬ t.stateMissing = true → Ended paths t :=
    fun placed => ⟨backed.sane (Bool.eq_false_iff.mpr placed), backed.backups⟩
  refine .bind (.bind (.probe (fun closed => (ended closed).resumable) ?_ fun reply failed fine =>
    ended fun missing => fine ⟨missing, failed⟩))
  cases there : (t.backups request.backup).isSome with
  | false => exact ⟨backed.either.resolve_right (by simp [there]), backed.backups⟩
  | true => exact (careful_bringBack backed there).mono (fun _ _ held => held) fun _ _ held => held

/-- The old installation is only in the backup, which the handler will find. -/
theorem away_backed (backups : t.BackupsManaged paths) (there : (t.backups request.backup).isSome = true)
    (missing : t.stateMissing = true) : Backed paths request t :=
  ⟨backups, fun placed => (Bool.false_ne_true (placed.symm.trans missing)).elim, .inr there⟩

theorem careful_discardStaging {error : ClientError} {Q : Unit → ClientDisk → Prop}
    (backups : t.BackupsManaged paths) (there : (t.backups request.backup).isSome = true)
    (missing : t.stateMissing = true) :
    Resumes paths origin (do
      clientStep (.discardStaging true) fun _ disk => some (disk.setStaging request.staging none)
      (if true then do
        let there ← installExists .lookReplaced
        if there then pure ()
        else clientStep .returnBackup fun _ => ClientDisk.moveFromBackup request.backup
      else pure ())
      throw error : ClientProcess Unit) Q (fun _ => Backed paths request) t := by
  have exposed : exposes (.discardStaging true) t := trivial
  have looks : exposes .lookReplaced (t.setStaging request.staging none) := trivial
  have returning : exposes .returnBackup (t.setStaging request.staging none) := trivial
  have still : Backed paths request (t.setStaging request.staging none) := away_backed backups there missing
  have returns : Resumes paths origin
      (clientStep .returnBackup fun _ => ClientDisk.moveFromBackup request.backup)
      (fun _ => Backed paths request) (fun _ => Backed paths request) (t.setStaging request.staging none) := by
    refine careful_clientStep (fun closed => (closed returning).elim) (fun _ => still) (fun _ _ _ _ => still)
      fun _ v moved => ?_
    have ended := moveFromBackup_ended still.backups moved
    exact ⟨fun _ => ended.1.backed ended.2, fun _ => ended.1.backed ended.2⟩
  refine .bind (careful_clientStep (fun closed => (closed exposed).elim)
    (fun _ => away_backed backups there missing) (fun _ _ _ none => (nomatch none)) fun _ v moved => ?_)
  cases moved
  refine ⟨fun _ => .bind (.bind (.probe (fun closed => (closed looks).elim) ?_ fun _ _ _ => returns)), fun _ => still⟩
  cases seen : (t.setStaging request.staging none).install.isSome with
  | true => exact still
  | false => exact returns

/-- The rename of the new installation into place, while the old one is in the backup. -/
theorem careful_placeUpdate {directory : ClientDirectory} (backups : t.BackupsManaged paths)
    (absent : t.install = none) (there : (t.backups request.backup).isSome = true)
    (staged : t.stagings request.staging = some directory) (bare : directory.state = none) :
    Resumes paths origin (placeClient request true)
      (fun _ u => u.install = some directory ∧ u.backups = t.backups) (fun _ => Backed paths request) t := by
  have exposed : exposes (.renameStaging true) t := trivial
  have renames : Resumes paths origin
      (clientStep (.renameStaging true) fun _ => ClientDisk.moveStaging request.staging)
      (fun _ u => u.install = some directory ∧ u.backups = t.backups)
      (fun _ u => u.backups = t.backups ∧ u.stateMissing = true) t := by
    have kept : t.backups = t.backups ∧ t.stateMissing = true := ⟨rfl, by simp [ClientDisk.stateMissing, absent]⟩
    refine careful_clientStep (E := fun u => u.backups = t.backups ∧ u.stateMissing = true)
      (fun closed => (closed exposed).elim) (fun _ => kept) (fun _ _ _ _ => kept) fun _ u moved => ?_
    simp only [ClientDisk.moveStaging, absent, staged, Option.some.injEq] at moved
    subst moved
    exact ⟨fun _ => ⟨rfl, rfl⟩, fun _ => ⟨rfl, by simp [ClientDisk.stateMissing, bare]⟩⟩
  exact .handle (renames.mono (fun _ _ held => held) fun _ u held =>
    careful_discardStaging (backups.congr held.1) (held.1 ▸ there) held.2)

/-- Only the staging has changed. -/
structure Beside (request : InstallRequest) (staging : Option ClientDirectory) (t u : ClientDisk) : Prop where
  install : u.install = t.install
  backups : u.backups = t.backups
  staging : u.stagings request.staging = staging

theorem Resumable.beside {staging : Option ClientDirectory} {u : ClientDisk}
    (resumable : Resumable paths origin t) (beside : Beside request staging t u) : Resumable paths origin u :=
  ⟨fun directory there => resumable.good directory (beside.install ▸ there),
    fun absent => beside.backups ▸ resumable.kept (beside.install ▸ absent),
    resumable.backups.congr beside.backups⟩

theorem careful_setStaging {site : ClientSite} {staging earlier : Option ClientDirectory} {u : ClientDisk}
    (resumable : Resumable paths origin t) (beside : Beside request earlier t u) :
    Resumes paths origin (clientStep site fun _ disk => some (disk.setStaging request.staging staging))
      (fun _ => Beside request staging t) (fun _ => Resumable paths origin) u := by
  have still := resumable.beside beside
  have staged : Beside request staging t (u.setStaging request.staging staging) :=
    ⟨beside.install, beside.backups, by simp [ClientDisk.setStaging]⟩
  refine careful_clientStep (fun _ => still) (fun _ => still) (fun _ _ _ none => (nomatch none)) fun _ v moved => ?_
  cases moved
  exact ⟨fun _ => staged, fun _ => resumable.beside staged⟩

theorem careful_stageClient (resumable : Resumable paths origin t) :
    Resumes paths origin (stageClient request) (fun _ => Beside request (some request.distribution.payload) t)
      (fun _ => Resumable paths origin) t := by
  have calls : ∀ {Q : Unit → ClientDisk → Prop} {site : ClientSite}, Q () t →
      Resumes paths origin (clientCall site) Q (fun _ => Resumable paths origin) t := fun held =>
    careful_clientCall (fun _ => resumable) resumable held
  have start : Beside request (t.stagings request.staging) t t := ⟨rfl, rfl, rfl⟩
  refine .bind (calls (.bind (.of_wp (Process.wp_require.mpr ⟨fun _ => .bind (calls ?_), fun _ => resumable⟩))))
  refine .bind ((careful_setStaging resumable start).mono (fun _ u cleared => ?_) fun _ _ held => held)
  refine .bind ((careful_setStaging resumable cleared).mono (fun _ v begun => ?_) fun _ _ held => held)
  exact careful_setStaging resumable begun

theorem careful_placeFresh {directory : ClientDirectory} (resumable : Resumable paths origin t)
    (staged : t.stagings request.staging = some directory) :
    Resumes paths origin (placeClient request false)
      (fun _ u => u.install = some directory ∧ u.backups = t.backups) (fun _ => Resumable paths origin) t := by
  have start : Beside request (some directory) t t := ⟨rfl, rfl, staged⟩
  have renames : Resumes paths origin
      (clientStep (.renameStaging false) fun _ => ClientDisk.moveStaging request.staging)
      (fun _ u => u.install = some directory ∧ u.backups = t.backups) (fun _ => Beside request (some directory) t) t := by
    refine careful_clientStep (E := Beside request (some directory) t) (fun _ => resumable) (fun _ => start)
      (fun _ _ _ _ => start) fun answer u moved => ⟨fun _ => ?_, fun fine => (fine ⟨answer, rfl⟩).elim⟩
    cases installed : t.install with
    | some other => simp [ClientDisk.moveStaging, installed] at moved
    | none =>
      simp only [ClientDisk.moveStaging, installed, staged, Option.some.injEq] at moved
      subst moved
      exact ⟨rfl, rfl⟩
  exact .handle (renames.mono (fun _ _ held => held) fun _ u held =>
    .bind ((careful_setStaging resumable held).mono (fun _ _ later => .bind (resumable.beside later))
      fun _ _ later => later))

theorem moveToBackup_away {u : ClientDisk} (standing : Standing paths t) (backups : t.BackupsManaged paths)
    (moved : t.moveToBackup request.backup = some u) :
    u.install = none ∧ (u.backups request.backup).isSome = true ∧ u.stagings = t.stagings ∧
      u.BackupsManaged paths := by
  obtain ⟨old, installed, managed⟩ := standing
  unfold ClientDisk.moveToBackup at moved
  rw [installed] at moved
  split at moved
  · next directory same _ =>
    cases same
    cases moved
    refine ⟨rfl, by simp [ClientDisk.setBackup], rfl, fun name other there => ?_⟩
    simp only [ClientDisk.setBackup] at there
    split at there
    · cases there
      exact managed
    · exact backups name other there
  · cases moved

/-- The `try` block of `installDistribution` with its handler, of an update. -/
theorem careful_replaceUpdate {previous : Option ManagedSetupState}
    (checked : checkDistribution request.distribution = .ok ()) (ended : Ended paths t) :
    Resumes paths origin (replaceClient paths request true previous) (fun _ => Ended paths)
      (fun _ => Resumable paths origin) t := by
  refine .bind ((careful_stageClient ended.resumable).mono (fun _ u staged => ?_) fun _ _ held => held)
  obtain ⟨old, installed, managed⟩ := ended.1
  have standing : Standing paths u := ⟨old, staged.install.trans installed, managed⟩
  have backups : u.BackupsManaged paths := ended.2.congr staged.backups
  have backed : Backed paths request u := standing.backed backups
  have replaces : Resumes paths origin (do
      clientStep .renameBackup fun _ => ClientDisk.moveToBackup request.backup
      placeClient request true
      settleClient paths request true previous : ClientProcess Unit) (fun _ => Ended paths)
      (fun _ => Backed paths request) u := by
    refine .bind (careful_clientStep (fun _ => standing.resumable backups) (fun _ => backed)
      (fun _ _ _ _ => backed) fun _ v moved => ?_)
    obtain ⟨absent, found, same, kept⟩ := moveToBackup_away standing backups moved
    have missing : v.stateMissing = true := by simp [ClientDisk.stateMissing, absent]
    refine ⟨fun _ => ?_, fun _ => away_backed kept found missing⟩
    refine .bind ((careful_placeUpdate kept absent found ((congrFun same _).trans staged.staging) rfl).mono
      (fun _ w placed => ?_) fun _ _ held => held)
    refine (careful_settleClient checked kept placed.2 placed.1 rfl fun _ => rfl).mono (fun _ x halted => ?_)
      fun _ x halted => ?_
    · exact ⟨halted.standing rfl, kept.congr halted.backups⟩
    · exact ⟨kept.congr halted.backups, halted.sane, .inr (halted.backups ▸ found)⟩
  exact .handle (replaces.mono (fun _ _ held => held) fun _ _ held =>
    (careful_restoreClient held).mono (fun _ _ later => later) fun _ _ later => later.resumable)

/-- The `try` block of `installDistribution`, of a fresh installation. -/
theorem careful_replaceFresh {previous : Option ManagedSetupState}
    (checked : checkDistribution request.distribution = .ok ()) (resumable : Resumable paths origin t) :
    Resumes paths origin (replaceClient paths request false previous) (fun _ => Resumable paths origin)
      (fun _ => Resumable paths origin) t := by
  refine .bind ((careful_stageClient resumable).mono (fun _ u staged => ?_) fun _ _ held => held)
  have held := resumable.beside staged
  refine .bind ((careful_placeFresh held staged.staging).mono (fun _ v placed => ?_) fun _ _ later => later)
  have backups : v.BackupsManaged paths := held.backups.congr placed.2
  have settled : ∀ w, Halted paths false v w → Resumable paths origin w := fun w halted =>
    halted.resumable backups (halted.standing rfl).missing
  exact (careful_settleClient checked backups rfl placed.1 rfl fun _ => rfl).mono (fun _ => settled)
    fun _ => settled

theorem careful_installClient {previous : Option ManagedSetupState}
    (checked : checkDistribution request.distribution = .ok ()) (resumable : Resumable paths origin t)
    (there : updating = true → t.install ≠ none) :
    Resumes paths origin (installClient paths request updating previous) (fun _ => Resumable paths origin)
      (fun _ => Resumable paths origin) t := by
  have calls : ∀ {Q : Unit → ClientDisk → Prop} {site : ClientSite} {u : ClientDisk}, Resumable paths origin u →
      Q () u → Resumes paths origin (clientCall site) Q (fun _ => Resumable paths origin) u := fun held after =>
    careful_clientCall (fun _ => held) held after
  refine .bind (calls resumable (.bind (.outcome ?_)))
  have replaces : Resumes paths origin (replaceClient paths request updating previous)
      (fun _ => Resumable paths origin) (fun _ => Resumable paths origin) t := by
    cases updating with
    | false => exact careful_replaceFresh checked resumable
    | true =>
      obtain ⟨directory, installed⟩ := Option.ne_none_iff_exists'.mp (there rfl)
      have ended : Ended paths t := ⟨⟨directory, installed, resumable.good directory installed⟩, resumable.backups⟩
      exact (careful_replaceUpdate checked ended).mono (fun _ _ held => held.resumable) fun _ _ held => held
  exact replaces.mono (fun _ u held => .bind (calls held held)) fun _ u held => .bind (calls held held)

theorem careful_repair (resumable : Resumable paths origin t) :
    Resumes paths origin (repairSetup paths false skill mcp) (fun _ => Resumable paths origin)
      (fun _ => Resumable paths origin) t := by
  cases installed : t.install with
  | none =>
    refine .bind (.of_wp (Process.wp_ask (fun _ => resumable) (fun _ => resumable) fun _ value same => ?_))
    simp only [installed, Option.map_none, Option.getD_none, Except.ok.injEq] at same
    subst same
    exact resumable
  | some directory =>
    have standing : Standing paths t := ⟨directory, installed, resumable.good directory installed⟩
    have settled : ∀ u, Halted paths false t u → Resumable paths origin u := fun u halted =>
      halted.resumable resumable.backups (halted.standing rfl).missing
    exact (careful_repairSetup resumable.backups (standing.halted rfl)).mono (fun _ => settled) fun _ => settled

theorem careful_installDistribution (resumable : Resumable paths origin t) :
    Resumes paths origin (installDistribution paths request) (fun _ => Resumable paths origin)
      (fun _ => Resumable paths origin) t := by
  refine .bind ?_
  cases checked : checkDistribution request.distribution with
  | error error => exact resumable
  | ok value =>
    show Resumes paths origin (readManagedState paths >>= fun existing => _) (fun _ => Resumable paths origin)
      (fun _ => Resumable paths origin) t
    refine .bind (.of_wp (Process.wp_ask (fun _ => resumable) (fun _ => resumable) fun _ existing _ => ?_))
    have installs : ∀ there : Bool, (there = true → t.install ≠ none) → Resumes paths origin (do
        Process.require (¬ (there = true ∧ existing.found = none)) .unmanaged
        let complete ←
          (if existing.found.any fun state => state.archiveSha256 == request.distribution.sha256 then
            installComplete
          else pure false)
        if complete then do
          repairSetup paths false (some request.skillTarget) (some request.mcpTarget)
          clientCall .report
          pure .current
        else installClient paths request there existing.found : ClientProcess InstallAction)
        (fun _ => Resumable paths origin) (fun _ => Resumable paths origin) t := by
      intro there found
      have last : ∀ complete : Bool, Resumes paths origin
          (if complete then do
            repairSetup paths false (some request.skillTarget) (some request.mcpTarget)
            clientCall .report
            pure .current
          else installClient paths request there existing.found : ClientProcess InstallAction)
          (fun _ => Resumable paths origin) (fun _ => Resumable paths origin) t := by
        intro complete
        cases complete with
        | false => exact careful_installClient checked resumable found
        | true =>
          exact .bind ((careful_repair resumable).mono (fun _ u held =>
            .bind (careful_clientCall (fun _ => held) held held)) fun _ _ held => held)
      refine .bind (.of_wp (Process.wp_require.mpr ⟨fun _ => .bind ?_, fun _ => resumable⟩))
      split
      · exact .probe (fun _ => resumable) (last _) fun _ _ _ => last false
      · exact last false
    refine .bind (.probe (fun _ => resumable) (installs _ fun there => ?_) fun _ _ _ =>
      installs false fun never => (nomatch never))
    exact Option.isSome_iff_ne_none.mp there

theorem careful_operation {operation : ClientOperation} (resumable : Resumable paths origin t) :
    Resumes paths origin (operation.process paths) (fun _ => Resumable paths origin)
      (fun _ => Resumable paths origin) t := by
  cases operation with
  | install request => exact careful_installDistribution resumable
  | repair skill mcp =>
    exact .bind ((careful_repair resumable).mono (fun _ _ held => held) fun _ _ held => held)

/-- What the calls promise: the property itself, and before every step at which a call may be killed. -/
def resumePromise (paths : SetupPaths) (origin : ClientDisk) :
    Service.CriticalPromise ClientSite ClientOperation ClientDisk ClientError InstallAction
      fun site disk => ¬ exposes site disk where
  Inv := Resumable paths origin
  At site disk := ¬ exposes site disk → Resumable paths origin disk
  Returns _ _ _ := Resumable paths origin
  Raises _ _ _ := Resumable paths origin
  at_inv closed held := held closed
  returns_inv held := held
  raises_inv held := held

end Calls

end LatexRenderer
