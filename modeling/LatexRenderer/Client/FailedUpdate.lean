import LatexRenderer.Machine.Verdict
import LatexRenderer.Model.Client.Setup

/-! # A failed update of the client

When the replacement of a managed installation fails, the handlers bring the backup back. They miss what is
beside it: a copy of the new payload that is only made in part or not yet renamed, and the removal of the
temporary directory, which comes after the success. `failed_update` says exactly which answers spoil the
restoration.
-/

namespace LatexRenderer

open Machine

/-- The removal and the rename of the restoration succeed. -/
def restores : ClientSite → Reply ClientAnswer → Prop
  | .unlinkInstall, reply => ∃ answer, reply = .done answer
  | .removeInstall, reply => ∃ answer, reply = .done answer
  | .restoreBackup, reply => ∃ answer, reply = .done answer
  | _, _ => True

/-- An answer that spoils the restoration. The copy of the payload fails once its directory is there, or
the rename to the backup fails after it; the inner handler fails to remove the staging; the outer one fails
to see the backup; or everything has succeeded, and the temporary directory cannot be removed. -/
def spoilsRestore (request : InstallRequest) : ClientSite → ClientDisk → Reply ClientAnswer → Prop
  | .beginCopy, _, reply => ∃ answer, reply = .lost answer
  | .finishCopy, _, reply => ¬ ∃ answer, reply = .done answer
  | .renameBackup, _, reply => ¬ ∃ answer, reply = .done answer
  | .discardStaging _, disk, reply => reply = .refused ∧ (disk.stagings request.staging).isSome = true
  | .lookBackup, disk, reply => (¬ ∃ answer, reply = .done answer) ∧ (disk.backups request.backup).isSome = true
  | .removeTemporary true, _, reply => ¬ ∃ answer, reply = .done answer
  | _, _, _ => False

/-- The previous installation itself is in place, so that it is in no backup, and the staging is gone. -/
structure Restored (request : InstallRequest) (before after : ClientDisk) : Prop where
  install : after.install = before.install
  backups : after.backups = before.backups
  staging : after.stagings request.staging = none

section Frames

variable {paths : SetupPaths} {request : InstallRequest}

/-- No answer at this step spoils the restoration. -/
def Harmless (request : InstallRequest) (site : ClientSite) : Prop :=
  ∀ disk reply, ¬ spoilsRestore request site disk reply

/-- A harmless step inside the installation directory. -/
structure Inside (request : InstallRequest) (site : ClientSite) (s t : ClientDisk) : Prop where
  harmless : Harmless request site
  backups : t.backups = s.backups
  stagings : t.stagings = s.stagings

theorem inside_refl {site : ClientSite} (harmless : Harmless request site)
    (s : ClientDisk) : Inside request site s s := ⟨harmless, rfl, rfl⟩

theorem steps_onInstall {site : ClientSite} {f : ClientAnswer → ClientDirectory → Option ClientDirectory}
    (harmless : Harmless request site) :
    (clientStep site fun answer => ClientDisk.onInstall (f answer)).Steps (Inside request) := by
  refine .act (inside_refl harmless) fun answer s _ t moved => ?_
  simp only [ClientDisk.onInstall] at moved
  cases there : s.install with
  | none => simp [there] at moved
  | some directory =>
    cases made : f answer directory with
    | none => simp [there, made] at moved
    | some changed =>
      simp only [there, Option.bind_some, made, Option.map_some, Except.ok.injEq, Prod.mk.injEq,
        true_and] at moved
      exact moved ▸ ⟨harmless, rfl, rfl⟩

theorem steps_clientCall {site : ClientSite}
    (harmless : Harmless request site) :
    (clientCall site).Steps (Inside request) := .ask (inside_refl harmless)

theorem steps_writeManagedState {writer : StateWriter} {state : ManagedSetupState} :
    (writeManagedState paths writer state).Steps (Inside request) := by
  refine .bind (.act (inside_refl fun _ _ => id) fun answer s token t made => ?_) fun token =>
    .bind (.probe (inside_refl fun _ _ => id)) fun existed => .handle ?_ fun error => .bind ?_ fun _ => trivial
  · cases written : ClientDisk.createPart answer.token { content := .current state } s with
    | none => simp [written] at made
    | some disk =>
      simp only [written, Except.ok.injEq, Prod.mk.injEq] at made
      obtain ⟨directory, _, changed⟩ := Option.bind_eq_some_iff.mp written
      obtain ⟨next, _, rfl⟩ := Option.map_eq_some_iff.mp changed
      exact made.2 ▸ ⟨fun _ _ => id, rfl, rfl⟩
  · refine .bind ?_ fun _ => .bind (steps_onInstall fun _ _ => id) fun _ => .bind ?_ fun _ => ?_
    · split
      · exact steps_onInstall fun _ _ => id
      · trivial
    · split
      · exact steps_clientCall fun _ _ => id
      · trivial
    · split
      · exact steps_onInstall fun _ _ => id
      · trivial
  · refine .bind (steps_onInstall fun _ _ => id) fun _ => ?_
    split
    · refine .bind (.probe (inside_refl fun _ _ => id)) fun there => ?_
      split
      · trivial
      · refine .bind (.probe (inside_refl fun _ _ => id)) fun aside => ?_
        split
        · exact steps_onInstall fun _ _ => id
        · trivial
    · trivial

theorem steps_repairSetup {updating : Bool} {skillTarget mcpTarget : Option SetupTarget} :
    (repairSetup paths updating skillTarget mcpTarget).Steps (Inside request) := by
  refine .bind (.ask (inside_refl fun _ _ => id)) fun found => ?_
  split
  · trivial
  · trivial
  refine .bind (.probe (inside_refl fun _ _ => id)) fun complete => .bind .require fun _ =>
    .bind (.bind (steps_clientCall fun _ _ => id) fun _ => ?_) fun pathAdded => .bind ?_ fun _ =>
    .bind (.ask (inside_refl fun _ _ => id)) fun answer => .bind steps_writeManagedState fun _ =>
    steps_clientCall fun _ _ => id
  · split
    · exact .ask (inside_refl fun _ _ => id)
    · trivial
  · unfold repairSkills
    split
    · trivial
    · exact .bind (.ask (inside_refl fun _ _ => id)) fun _ => steps_clientCall fun _ _ => id

theorem steps_settleClient {updating : Bool} {previous : Option ManagedSetupState} :
    (settleClient paths request updating previous).Steps (Inside request) :=
  .bind steps_writeManagedState fun _ => .bind steps_repairSetup fun _ => steps_clientCall fun _ _ => id

end Frames

section Judgement

variable {paths : SetupPaths} {request : InstallRequest} {before t : ClientDisk} {old : ClientDirectory}

/-- The previous installation is in the backup, and the staging is gone. -/
structure Held (request : InstallRequest) (before after : ClientDisk) : Prop where
  backups : after.backups = (before.setBackup request.backup before.install).backups
  staging : after.stagings request.staging = none

/-- Something is left beside the installation. -/
def Littered (request : InstallRequest) (disk : ClientDisk) : Prop :=
  (disk.stagings request.staging).isSome = true ∨ (disk.backups request.backup).isSome = true

/-- Before the call nothing is under the names that it makes. -/
structure Untouched (request : InstallRequest) (before : ClientDisk) (old : ClientDirectory) : Prop where
  install : before.install = some old
  backup : before.backups request.backup = none
  staging : before.stagings request.staging = none

theorem Untouched.not_restored (untouched : Untouched request before old) (littered : Littered request t) :
    ¬ Restored request before t := by
  intro restored
  rcases littered with staging | backup
  · rw [restored.staging] at staging
    cases staging
  · rw [restored.backups, untouched.backup] at backup
    cases backup

theorem Held.backup (held : Held request before t) (untouched : Untouched request before old) :
    t.backups request.backup = some old := by
  rw [held.backups]
  simp [ClientDisk.setBackup, untouched.install]

/-- Bringing the backup back restores everything. -/
theorem Held.moveFromBackup (held : Held request before t) (untouched : Untouched request before old)
    {after : ClientDisk} (moved : t.moveFromBackup request.backup = some after) :
    Restored request before after := by
  unfold ClientDisk.moveFromBackup at moved
  rw [held.backup untouched] at moved
  split at moved
  · next directory _ same =>
    cases same
    cases moved
    refine ⟨untouched.install.symm, ?_, held.staging⟩
    funext name
    show (if name = request.backup then none else t.backups name) = before.backups name
    split
    · next same => rw [same, untouched.backup]
    · next other =>
      rw [held.backups]
      exact if_neg other
  · cases moved

theorem moveFromBackup_stagings {after : ClientDisk} {name : String} (moved : t.moveFromBackup name = some after) :
    after.stagings = t.stagings := by
  unfold ClientDisk.moveFromBackup at moved
  split at moved
  · cases moved
    rfl
  · cases moved

theorem steps_restoreClient :
    (restoreClient request).Steps fun _ s t => t.stagings = s.stagings := by
  refine .bind (.probe fun _ => rfl) fun there => ?_
  split
  · refine .bind (.bind (.act (fun _ => rfl) ?_) fun _ => .act (fun _ => rfl) ?_) fun _ =>
      .bind (.act (fun _ => rfl) ?_) fun _ => .ask fun _ => rfl
    · intro answer s _ t moved
      cases moved
      rfl
    · intro answer s _ t moved
      cases moved
      rfl
    · intro answer s _ t moved
      cases made : s.moveFromBackup request.backup with
      | none => simp [made] at moved
      | some after =>
        simp only [made, Except.ok.injEq, Prod.mk.injEq, true_and] at moved
        exact moved ▸ moveFromBackup_stagings made
  · trivial

/-- The end of a failed replacement. -/
abbrev failRestored (request : InstallRequest) (error : ClientError) : ClientProcess Unit := do
  restoreClient request
  throw error

theorem wp_failRestored {Q : Unit → ClientDisk → Prop} {error : ClientError}
    (staged : (t.stagings request.staging).isSome = true) :
    (failRestored request error).wp restores Q (fun _ => Littered request) (fun _ _ => True) t := by
  refine Process.wp_bind.mpr ((steps_restoreClient.wp (P := fun u => (u.stagings request.staging).isSome = true)
    (C := fun _ _ => True) (fun _ _ _ _ _ => trivial) (fun _ s u held same => same ▸ held) staged).mono
    (fun _ _ held => .inl held) (fun _ _ held => .inl held) fun _ _ held => held)

theorem wp_clientStep {allowed : ClientSite → Reply ClientAnswer → Prop} {Q : Unit → ClientDisk → Prop}
    {E : ClientError → ClientDisk → Prop} {C : ClientSite → ClientDisk → Prop} {site : ClientSite}
    {f : ClientAnswer → ClientDisk → Option ClientDisk} (visit : C site t) (fails : ∀ error, E error t)
    (moves : ∀ answer u, f answer t = some u → Q () u ∧ ∀ error, E error u) :
    (clientStep site f).wp allowed Q E C t := by
  refine Process.wp_act.mpr ⟨visit, fun reply _ => ?_⟩
  cases reply with
  | refused => exact fails _
  | done answer =>
    cases made : f answer t with
    | none => simpa [Reply.apply, made, Process.ofExcept] using fails _
    | some u => simpa [Reply.apply, made, Process.ofExcept] using (moves answer u made).1
  | lost answer =>
    cases made : f answer t with
    | none => simpa [Reply.apply, made, Process.ofExcept] using fails _
    | some u => simpa [Reply.apply, made, Process.ofExcept] using (moves answer u made).2 _

/-- A step that changes the files and whose failures spoil the restoration. -/
theorem judged_clientStep {Q Q' : Unit → ClientDisk → Prop} {E E' : ClientError → ClientDisk → Prop}
    {site : ClientSite} {f : ClientAnswer → ClientDisk → Option ClientDisk}
    (spoils : ∀ reply, spoilsRestore request site t reply ↔ ¬ ∃ answer, reply = .done answer)
    (spoilt : (∀ error, E' error t) ∧ ∀ answer u, f answer t = some u → ∀ error, E' error u)
    (moves : ∀ answer, ∃ u, f answer t = some u ∧ Q () u) :
    (clientStep site f).Judged restores (spoilsRestore request) Q E Q' E' t := by
  refine .act (fun reply _ bad => ?_) fun reply _ good => ?_
  · cases reply with
    | done answer => exact absurd ⟨answer, rfl⟩ ((spoils _).mp bad)
    | refused => exact spoilt.1 _
    | lost answer =>
      cases made : f answer t with
      | none => simpa [Reply.apply, made, Process.ofExcept] using spoilt.1 _
      | some u => simpa [Reply.apply, made, Process.ofExcept] using spoilt.2 answer u made _
  · obtain ⟨answer, rfl⟩ := not_not.mp fun never => good ((spoils reply).mpr never)
    obtain ⟨u, made, held⟩ := moves answer
    simpa [Reply.apply, made, Process.ofExcept] using held

theorem Held.install (held : Held request before t) (install : Option ClientDirectory) :
    Held request before { t with install := install } := ⟨held.backups, held.staging⟩

theorem wp_clientStep_done {Q : Unit → ClientDisk → Prop} {E : ClientError → ClientDisk → Prop}
    {C : ClientSite → ClientDisk → Prop} {site : ClientSite}
    {f : ClientAnswer → ClientDisk → Option ClientDisk} (visit : C site t)
    (sure : ∀ reply, restores site reply → ∃ answer, reply = .done answer)
    (moves : ∀ answer, ∃ u, f answer t = some u ∧ Q () u) : (clientStep site f).wp restores Q E C t := by
  refine Process.wp_act.mpr ⟨visit, fun reply answered => ?_⟩
  obtain ⟨answer, rfl⟩ := sure reply answered
  obtain ⟨u, made, held⟩ := moves answer
  simpa [Reply.apply, made, Process.ofExcept] using held

theorem judged_of_harmless {α : Type} {p : ClientProcess α} {Q Q' : α → ClientDisk → Prop}
    {E E' : ClientError → ClientDisk → Prop}
    (promise : p.wp restores Q E (fun site _ => Harmless request site) t) :
    p.Judged restores (spoilsRestore request) Q E Q' E' t :=
  .of_wp promise fun _ _ _ harmless => harmless _ _

theorem wp_restoreBackup {E : ClientError → ClientDisk → Prop} {Q : Unit → ClientDisk → Prop}
    (untouched : Untouched request before old) (held : Held request before t)
    (restored : ∀ u, Restored request before u → Q () u ∧ ∀ error, E error u) :
    (do
      removeInstall
      clientStep .restoreBackup fun _ => ClientDisk.moveFromBackup request.backup
      clientCall .warn : ClientProcess Unit).wp restores Q E (fun site _ => Harmless request site) t := by
  refine Process.wp_bind.mpr (Process.wp_bind.mpr (wp_clientStep_done (fun _ _ => id) (fun _ => id)
    fun answer => ⟨_, rfl, ?_⟩))
  refine wp_clientStep_done (fun _ _ => id) (fun _ => id) fun _ => ⟨_, rfl, ?_⟩
  have emptied : Held request before { t with install := none } := held.install none
  have moved : ClientDisk.moveFromBackup request.backup { t with install := none } =
      some { ClientDisk.setBackup request.backup none { t with install := none } with install := some old } := by
    have backed : t.backups request.backup = some old := held.backup untouched
    simp [ClientDisk.moveFromBackup, backed]
  have back := emptied.moveFromBackup untouched moved
  refine Process.wp_bind.mpr (wp_clientStep_done (fun _ _ => id) (fun _ => id) fun _ => ⟨_, moved, ?_⟩)
  exact Process.wp_ask (fun _ _ => id) (restored _ back).2 fun _ _ _ => (restored _ back).1

theorem judged_failRestored {Q Q' : Unit → ClientDisk → Prop} {error : ClientError}
    (untouched : Untouched request before old) (held : Held request before t ∨ Restored request before t) :
    (failRestored request error).Judged restores (spoilsRestore request) Q
      (fun _ => Restored request before) Q' (fun _ => Littered request) t := by
  rcases held with held | restored
  · have there : (t.backups request.backup).isSome = true := by
      rw [held.backup untouched]
      rfl
    refine .bind (.bind (.probe ?_ ?_ ?_))
    · rintro reply ⟨missed, _⟩
      exact ⟨missed, .inr there⟩
    · rw [there]
      exact judged_of_harmless (wp_restoreBackup untouched held fun u restored => ⟨restored, fun _ => restored⟩)
    · exact fun reply missed good => absurd ⟨missed, there⟩ good
  · have gone : (t.backups request.backup).isSome = false := by
      rw [restored.backups, untouched.backup]
      rfl
    refine .bind (.bind (.probe ?_ ?_ ?_))
    · rintro reply ⟨_, seen⟩
      rw [gone] at seen
      cases seen
    · rw [gone]
      exact restored
    · exact fun reply _ _ => restored

/-- Up to the rename to the backup only the staging is touched. -/
structure Staged (before after : ClientDisk) : Prop where
  install : after.install = before.install
  backups : after.backups = before.backups

/-- The start of the copy; it fails before its directory is there, or spoils the restoration. -/
theorem judged_beginCopy {R R' : Unit → ClientDisk → Prop} (restored : Restored request before t)
    (begun : ∀ u, Staged before u → (u.stagings request.staging).isSome = true → R () u) :
    (clientStep .beginCopy fun _ disk => some (disk.setStaging request.staging
      (some { request.distribution.payload with complete := false }))).Judged restores (spoilsRestore request)
      R (fun _ => Restored request before) R' (fun _ => Littered request) t := by
  have copied : Staged before (t.setStaging request.staging
      (some { request.distribution.payload with complete := false })) :=
    ⟨restored.install, restored.backups⟩
  refine .act (fun reply _ bad => ?_) fun reply _ good => ?_
  · obtain ⟨answer, rfl⟩ := bad
    exact .inl (by simp [Reply.apply, ClientDisk.setStaging])
  · cases reply with
    | done answer => exact begun _ copied (by simp [Reply.apply, ClientDisk.setStaging])
    | refused => exact restored
    | lost answer => exact absurd ⟨answer, rfl⟩ good

theorem judged_stageClient {R R' : Unit → ClientDisk → Prop} (untouched : Untouched request before old)
    (staged : ∀ t, Staged before t → t.stagings request.staging = some request.distribution.payload → R () t) :
    (stageClient request).Judged restores (spoilsRestore request) R (fun _ => Restored request before) R'
      (fun _ => Littered request) before := by
  have start : Restored request before before := ⟨rfl, rfl, untouched.staging⟩
  have cleared : Restored request before (before.setStaging request.staging none) :=
    ⟨rfl, rfl, by simp [ClientDisk.setStaging]⟩
  have calls : ∀ {Q : Unit → ClientDisk → Prop} {site : ClientSite}, Harmless request site → Q () before →
      (clientCall site).wp restores Q (fun _ => Restored request before) (fun site _ => Harmless request site)
        before := fun harmless held => Process.wp_ask harmless (fun _ => start) fun _ _ _ => held
  refine .bind (judged_of_harmless (calls (fun _ _ => id) ?_))
  refine .bind (judged_of_harmless (Process.wp_require.mpr ⟨fun _ => ?_, fun _ => start⟩))
  refine .bind (judged_of_harmless (calls (fun _ _ => id) ?_))
  refine .bind (judged_of_harmless (wp_clientStep (fun _ _ => id) (fun _ => start) fun _ u moved => ?_))
  cases moved
  refine ⟨.bind (judged_beginCopy cleared fun t begun there => ?_), fun _ => cleared⟩
  refine judged_clientStep (fun _ => Iff.rfl) ⟨fun _ => .inl there, fun _ u moved _ => ?_⟩ fun _ => ⟨_, rfl, ?_⟩
  · cases moved
    exact .inl (by simp [ClientDisk.setStaging])
  · exact staged _ ⟨begun.install, begun.backups⟩ (by simp [ClientDisk.setStaging])

/-- What the handler of a replacement is given. -/
def Replaced (request : InstallRequest) (before t : ClientDisk) : Prop :=
  Held request before t ∨ Restored request before t

theorem wp_returnBackup {Q : Unit → ClientDisk → Prop} {error : ClientError}
    (untouched : Untouched request before old) (held : Held request before t) :
    (do
      (if true then do
        let there ← installExists .lookReplaced
        if there then pure () else clientStep .returnBackup fun _ => ClientDisk.moveFromBackup request.backup
      else pure ())
      throw error : ClientProcess Unit).wp restores Q (fun _ => Replaced request before)
      (fun site _ => Harmless request site) t := by
  refine Process.wp_bind.mpr (Process.wp_ite.mpr ⟨fun _ => ?_, fun never => absurd rfl never⟩)
  have returns : (clientStep .returnBackup fun _ => ClientDisk.moveFromBackup request.backup).wp restores
      (fun _ u => Replaced request before u) (fun _ => Replaced request before)
      (fun site _ => Harmless request site) t :=
    wp_clientStep (fun _ _ => id) (fun _ => .inl held) fun _ u moved =>
      have restored := held.moveFromBackup untouched moved
      ⟨.inr restored, fun _ => .inr restored⟩
  refine Process.wp_bind.mpr (Process.wp_probe (fun _ _ => id) ?_ returns)
  exact Process.wp_ite.mpr ⟨fun _ => .inl held, fun _ => returns⟩

/-- The inner handler; it fails to remove the staging, or hands on what can be restored. -/
theorem judged_discardStaging {Q Q' : Unit → ClientDisk → Prop} {error : ClientError}
    (untouched : Untouched request before old)
    (backups : t.backups = (before.setBackup request.backup before.install).backups) :
    (do
      clientStep (.discardStaging true) fun _ disk => some (disk.setStaging request.staging none)
      (if true then do
        let there ← installExists .lookReplaced
        if there then pure () else clientStep .returnBackup fun _ => ClientDisk.moveFromBackup request.backup
      else pure ())
      throw error : ClientProcess Unit).Judged restores (spoilsRestore request) Q
      (fun _ => Replaced request before) Q' (fun _ u => (u.stagings request.staging).isSome = true) t := by
  have held : Held request before (t.setStaging request.staging none) :=
    ⟨backups, by simp [ClientDisk.setStaging]⟩
  refine .bind (.act (fun reply _ bad => ?_) fun reply _ good => ?_)
  · obtain ⟨rfl, staged⟩ := bad
    exact staged
  · cases reply with
    | done answer => exact judged_of_harmless (wp_returnBackup untouched held)
    | lost answer => exact .inl held
    | refused =>
      refine .inl ⟨backups, ?_⟩
      cases staged : t.stagings request.staging with
      | none => exact staged
      | some directory => exact absurd ⟨rfl, by simp [staged]⟩ good

theorem judged_placeClient {R R' : Unit → ClientDisk → Prop} (untouched : Untouched request before old)
    (absent : t.install = none)
    (backups : t.backups = (before.setBackup request.backup before.install).backups)
    (staged : (t.stagings request.staging).isSome = true)
    (placed : ∀ u, Held request before u → R () u) :
    (placeClient request true).Judged restores (spoilsRestore request) R (fun _ => Replaced request before) R'
      (fun _ u => (u.stagings request.staging).isSome = true) t := by
  obtain ⟨payload, there⟩ := Option.isSome_iff_exists.mp staged
  have held : Held request before { t.setStaging request.staging none with install := some payload } :=
    ⟨backups, by simp [ClientDisk.setStaging]⟩
  refine .handle (judged_of_harmless (wp_clientStep (fun _ _ => id) (fun error => ?_) fun _ u moved => ?_))
  · exact judged_discardStaging untouched backups
  · unfold ClientDisk.moveStaging at moved
    rw [absent, there] at moved
    cases moved
    exact ⟨placed _ held, fun error => judged_discardStaging untouched held.backups⟩

theorem judged_replaceClient {previous : Option ManagedSetupState} (untouched : Untouched request before old) :
    (replaceClient paths request true previous).Judged restores (spoilsRestore request)
      (fun _ u => (u.backups request.backup).isSome = true) (fun _ => Restored request before)
      (fun _ _ => False) (fun _ => Littered request) before := by
  refine .bind (judged_stageClient untouched fun t staged there => .handle ?_)
  have moved : t.moveToBackup request.backup =
      some { t.setBackup request.backup (some old) with install := none } := by
    simp [ClientDisk.moveToBackup, staged.install, untouched.install, staged.backups, untouched.backup]
  have backups : (t.setBackup request.backup (some old)).backups =
      (before.setBackup request.backup before.install).backups := by
    simp [ClientDisk.setBackup, staged.backups, untouched.install]
  have staging : (t.stagings request.staging).isSome = true := by rw [there]; rfl
  refine .bind (judged_clientStep (fun _ => Iff.rfl) ⟨fun _ => wp_failRestored staging, fun _ u same _ => ?_⟩
    fun _ => ⟨_, moved, ?_⟩)
  · cases moved.symm.trans same
    exact wp_failRestored staging
  refine .bind ((judged_placeClient (t := { t.setBackup request.backup (some old) with install := none })
    untouched rfl backups staging fun u held => ?_).mono (fun _ _ held => held)
    (fun _ _ replaced => judged_failRestored untouched replaced) (fun _ _ held => held)
    fun _ _ littered => wp_failRestored littered)
  have settles : (settleClient paths request true previous).wp restores (fun _ => Held request before)
      (fun _ => Held request before) (fun site _ => Harmless request site) u :=
    steps_settleClient.wp (fun _ _ _ _ inside => inside.harmless) (fun _ _ _ held inside =>
      ⟨inside.backups.trans held.backups, (congrFun inside.stagings _).trans held.staging⟩) held
  have judged : (settleClient paths request true previous).Judged restores (spoilsRestore request)
      (fun _ => Held request before) (fun _ => Held request before) (fun _ _ => False) (fun _ _ => False) u :=
    judged_of_harmless settles
  refine judged.mono (fun _ v held => ?_) (fun _ v held => judged_failRestored untouched (.inl held))
    (fun _ _ never => never.elim) fun _ _ never => never.elim
  rw [held.backup untouched]
  rfl

theorem judged_installClient {previous : Option ManagedSetupState} (untouched : Untouched request before old) :
    (installClient paths request true previous).Judged restores (spoilsRestore request) (fun _ _ => True)
      (fun _ => Restored request before) (fun _ _ => True) (fun _ => Littered request) before := by
  have start : Restored request before before := ⟨rfl, rfl, untouched.staging⟩
  refine .bind (judged_of_harmless (Process.wp_ask (fun _ _ => id) (fun _ => start) fun _ _ _ => ?_))
  refine .bind (.outcome ((judged_replaceClient untouched).mono (fun _ t backed => ?_)
    (fun error t restored => ?_) (fun _ _ never => never.elim) fun error t littered => ?_))
  · refine .bind (.act (fun reply _ bad => ?_) fun reply _ good => ?_)
    · cases reply with
      | done answer => exact absurd ⟨answer, rfl⟩ bad
      | refused => exact .inr backed
      | lost answer => exact .inr backed
    · obtain ⟨answer, rfl⟩ := not_not.mp good
      trivial
  · refine .bind (judged_of_harmless (Process.wp_ask (fun _ _ => id) (fun _ => restored) fun _ _ _ => ?_))
    exact restored
  · exact Process.wp_bind.mpr (Process.wp_ask trivial (fun _ => littered) fun _ _ _ => littered)

/-- When the replacement of a managed installation fails, with errors at any of its steps but the removal
and the rename of the restoration, the previous installation is back and nothing is left beside it exactly
when no answer was one of those that spoil it. -/
theorem failed_update {previous : Option ManagedSetupState} (untouched : Untouched request before old)
    {replies : List (Reply ClientAnswer)} {error : ClientError} {after : ClientDisk}
    (restoring : ∀ event ∈ (Service.trace (installClient paths request true previous) before replies :
      List (HostEvent Unit ClientSite ClientAnswer ClientError InstallAction Empty)),
      Service.Allows restores event)
    (rejected : Service.exec (installClient paths request true previous) before replies =
      (.raise error, after)) :
    Restored request before after ↔
      ¬ Process.spoiled (spoilsRestore request) (installClient paths request true previous) before replies := by
  obtain ⟨spoilt, fine⟩ := (judged_installClient untouched).exec restoring rejected
  exact ⟨fun restored bad => untouched.not_restored (spoilt bad) restored, fine⟩

end Judgement

section Examples

/-- An event of a call of the client. -/
abbrev ClientEvent : Type := HostEvent Unit ClientSite ClientAnswer ClientError InstallAction Empty

/-- The answers of an event leave the restoration alone. -/
def sparesRestore : ClientEvent → Bool
  | .advance .unlinkInstall (.done _) => true
  | .advance .unlinkInstall _ => false
  | .advance .removeInstall (.done _) => true
  | .advance .removeInstall _ => false
  | .advance .restoreBackup (.done _) => true
  | .advance .restoreBackup _ => false
  | _ => true

theorem allows_of_sparesRestore {events : List ClientEvent} (spares : events.all sparesRestore = true) :
    ∀ event ∈ events, Service.Allows restores event := by
  intro event member
  have own := List.all_eq_true.mp spares event member
  cases event with
  | advance site reply =>
    cases site <;> first | trivial | (cases reply <;> first | exact ⟨_, rfl⟩ | cases own)
  | _ => trivial

/-- Paths of a user. -/
def examplePaths : SetupPaths where
  platform := .linux
  installDirectory := "/home/user/.local/share/latex-renderer"
  binDirectory := "/home/user/.local/bin"
  normalizePath := id
  absoluteBin := fun _ => true

/-- The digest of an archive. -/
def exampleDigest (c : Char) : String := String.ofList (List.replicate 64 c)

/-- An update of the client. -/
def exampleUpdate : InstallRequest where
  distribution :=
    ⟨"2.0.0", "latex-renderer-client-2.0.0.zip", exampleDigest 'b', 1000, exampleDigest 'b', 1000, true⟩
  skillTarget := .none
  mcpTarget := .none
  staging := "staging-1-1700000000000"
  backup := "backup-20231114221320000"
  now := "2023-11-14T22:13:20.000Z"

/-- The state of the first version. -/
def exampleState : ManagedSetupState :=
  ⟨"1.0.0", exampleDigest 'a', .linux, examplePaths.installDirectory, examplePaths.binDirectory, .none, .none,
    [], false, false, "2023-01-01T00:00:00.000Z", "2023-01-01T00:00:00.000Z"⟩

/-- The first version. -/
def exampleClient : ClientDirectory where
  archive := exampleDigest 'a'
  complete := true
  state := some { content := .current exampleState }
  part := fun _ => none
  previous := fun _ => none

/-- The first version is installed. -/
def exampleDisk : ClientDisk := ⟨some exampleClient, fun _ => none, fun _ => none⟩

theorem untouched_exampleDisk : Untouched exampleUpdate exampleDisk exampleClient := ⟨rfl, rfl, rfl⟩

/-- Answers up to one that is an error, and from there on. -/
def failingReplies (before after : Nat) : List (Reply ClientAnswer) :=
  List.replicate before (.done {}) ++ .refused :: List.replicate after (.done {})

/-- The update of the example. -/
abbrev exampleProcess : ClientProcess InstallAction :=
  installClient examplePaths exampleUpdate true (some exampleState)

/-- The host after the repair has failed. -/
def restoredExample : ClientDisk := (Service.exec exampleProcess exampleDisk (failingReplies 14 6)).2

/-- The host after the copy has failed. -/
def litteredExample : ClientDisk := (Service.exec exampleProcess exampleDisk (failingReplies 5 1)).2

theorem restoredExample_rejected : Service.exec exampleProcess exampleDisk (failingReplies 14 6) =
    (.raise .host, restoredExample) := Prod.ext rfl rfl

theorem litteredExample_rejected : Service.exec exampleProcess exampleDisk (failingReplies 5 1) =
    (.raise .host, litteredExample) := Prod.ext rfl rfl

instance decidableDone {ι : Type} : ∀ reply : Reply ι, Decidable (∃ answer, reply = .done answer)
  | .done answer => isTrue ⟨answer, rfl⟩
  | .refused => isFalse fun ⟨_, never⟩ => by cases never
  | .lost _ => isFalse fun ⟨_, never⟩ => by cases never

instance decidableLost {ι : Type} : ∀ reply : Reply ι, Decidable (∃ answer, reply = .lost answer)
  | .lost answer => isTrue ⟨answer, rfl⟩
  | .refused => isFalse fun ⟨_, never⟩ => by cases never
  | .done _ => isFalse fun ⟨_, never⟩ => by cases never

instance decidableSpoilsRestore (request : InstallRequest) (site : ClientSite) (disk : ClientDisk) (reply : Reply ClientAnswer) :
    Decidable (spoilsRestore request site disk reply) := by
  unfold spoilsRestore
  split <;> infer_instance

/-- The repair at the end of an update fails, and the first version is back. -/
theorem failed_update_repair : Restored exampleUpdate exampleDisk restoredExample :=
  (failed_update untouched_exampleDisk (allows_of_sparesRestore (by decide)) restoredExample_rejected).mpr (by decide)

/-- The copy of an update fails after its directory is there, and the directory stays. -/
theorem failed_update_litters : ∃ (request : InstallRequest) (before after : ClientDisk) (old : ClientDirectory)
    (previous : Option ManagedSetupState) (replies : List (Reply ClientAnswer)),
    Untouched request before old ∧ old.managed examplePaths = .managed exampleState ∧
      (∀ event ∈ (Service.trace (installClient examplePaths request true previous) before replies :
        List ClientEvent), Service.Allows restores event) ∧
      Service.exec (installClient examplePaths request true previous) before replies = (.raise .host, after) ∧
      ¬ Restored request before after := by
  refine ⟨exampleUpdate, exampleDisk, litteredExample, exampleClient, some exampleState, failingReplies 5 1,
    untouched_exampleDisk, by decide, allows_of_sparesRestore (by decide), litteredExample_rejected, ?_⟩
  exact untouched_exampleDisk.not_restored (.inl (by decide))

end Examples

end LatexRenderer
