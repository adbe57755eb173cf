import LatexRenderer.Machine.Critical
import LatexRenderer.Model.Client.Setup

/-! # The writers of the state file

The state file is inside the installation directory, and its writer renames it aside before the new one comes
into its place. `exposes` says before which steps of the client the installation is without its state file or
away, `strands` which answers end a call there. Between, the writers keep a managed installation in place,
or leave it to the handler of the update, which brings the backup back.
-/

namespace LatexRenderer

open Machine

/-- The state file is not in its place. -/
def ClientDisk.stateMissing (disk : ClientDisk) : Bool := !disk.install.any fun directory => directory.state.isSome

/-- Before this step there is no installation directory or one without its state file: between the renames of
a replacement and the first state file, or, in the handlers, while the state file is not in its place. -/
def exposes : ClientSite → ClientDisk → Prop
  | .renameStaging true, _ => True
  | .discardStaging true, _ => True
  | .lookReplaced, _ => True
  | .returnBackup, _ => True
  | .createPart (.installing _), _ => True
  | .lookState (.installing _), _ => True
  | .renamePart (.installing _), _ => True
  | .renamePart (.repairing _), disk => disk.stateMissing = true
  | .discardPart _, disk => disk.stateMissing = true
  | .lookLost _, disk => disk.stateMissing = true
  | .lookAside _, disk => disk.stateMissing = true
  | .returnState _, disk => disk.stateMissing = true
  | .lookBackup, disk => disk.stateMissing = true
  | .unlinkInstall, disk => disk.stateMissing = true
  | .removeInstall, disk => disk.stateMissing = true
  | .restoreBackup, _ => True
  | _, _ => False

/-- The step was not answered with success. -/
def Failed (reply : Reply ClientAnswer) : Prop := ¬ ∃ answer, reply = .done answer

/-- An answer that ends a call in such a stretch: a fresh installation fails between its rename and its first
state file, or a handler fails while the state file is not in its place; or a random id that is in use. -/
def strands : ClientSite → ClientDisk → Reply ClientAnswer → Prop
  | .renameStaging false, _, reply => ∃ answer, reply = .lost answer
  | .createPart (.installing false), _, reply => Failed reply
  | .createPart _, disk, reply => ∃ answer, (reply = .done answer ∨ reply = .lost answer) ∧
      (disk.install.any fun directory => (directory.previous answer.token).isSome) = true
  | .renamePart (.installing false), _, reply => reply = .refused
  | .discardPart (.repairing false), disk, reply => disk.stateMissing = true ∧ Failed reply
  | .lookAside (.repairing false), disk, reply => disk.stateMissing = true ∧ Failed reply
  | .returnState (.repairing false), disk, reply => disk.stateMissing = true ∧ reply = .refused
  | .lookBackup, disk, reply => disk.stateMissing = true ∧ Failed reply
  | .unlinkInstall, disk, .refused => disk.stateMissing = true
  | .unlinkInstall, disk, .lost answer => disk.stateMissing = true ∨ answer.keepsState = false
  | .removeInstall, disk, .refused => disk.stateMissing = true
  | .removeInstall, _, .lost _ => True
  | .restoreBackup, _, reply => reply = .refused
  | _, _, _ => False

/-- A managed installation is in place. -/
def Standing (paths : SetupPaths) (disk : ClientDisk) : Prop :=
  ∃ directory, disk.install = some directory ∧ directory.Managed paths

theorem ClientDisk.BackupsManaged.congr {paths : SetupPaths} {t u : ClientDisk} (managed : t.BackupsManaged paths)
    (same : u.backups = t.backups) : u.BackupsManaged paths := fun name directory there =>
  managed name directory (same ▸ there)

/-- The next installation is not refused, and no installation is only a backup: without an installation in
place there was none at the start, and the backups are those of the start. -/
structure Resumable (paths : SetupPaths) (origin disk : ClientDisk) : Prop where
  good : disk.Good paths
  kept : disk.install = none → origin.install = none ∧ disk.backups = origin.backups
  backups : disk.BackupsManaged paths

/-- The calls of a run, with what they promise of a single process. -/
abbrev Resumes {α : Type} (paths : SetupPaths) (origin : ClientDisk) (p : ClientProcess α)
    (Q : α → ClientDisk → Prop) (E : ClientError → ClientDisk → Prop) (s : ClientDisk) : Prop :=
  p.careful (fun site disk reply => ¬ strands site disk reply) Q E
    (fun site disk => ¬ exposes site disk → Resumable paths origin disk) s

section States

variable {paths : SetupPaths}

theorem archiveDigest_zeros : archiveDigest (String.ofList (List.replicate 64 '0')) = true := by decide

theorem normalizeState_some {content : StateContent} {state : ManagedSetupState}
    (read : normalizeState paths content = some state) :
    releaseVersion state.version = true ∧ archiveDigest state.archiveSha256 = true ∧
      state.platform = paths.platform ∧
      paths.normalizePath state.installDirectory = paths.normalizePath paths.installDirectory := by
  cases content with
  | current value =>
    simp only [normalizeState] at read
    split at read
    · next supported =>
      cases read
      simp only [supportedState, Bool.and_eq_true, decide_eq_true_eq, beq_iff_eq] at supported
      exact ⟨supported.1.1.1.1, supported.1.1.1.2, supported.1.1.2, supported.1.2⟩
    · cases read
  | legacy version platform installedAt =>
    simp only [normalizeState] at read
    split at read
    · next supported =>
      cases read
      simp only [Bool.and_eq_true] at supported
      exact ⟨supported.1, archiveDigest_zeros, rfl, rfl⟩
    · cases read
  | unsupported => cases read
  | malformed => cases read

theorem StateFile.read_managed {file : StateFile} {state : ManagedSetupState}
    (read : file.read paths = .managed state) : normalizeState paths file.content = some state := by
  unfold StateFile.read at read
  split at read
  · cases read
  split at read
  · cases read
  split at read
  · cases read
  cases normal : normalizeState paths file.content with
  | none =>
    rw [normal] at read
    cases read
  | some found =>
    rw [normal] at read
    cases read
    rfl

/-- A state file that the client has written is read back. -/
theorem StateFile.read_current {state : ManagedSetupState} (supported : supportedState paths state = true) :
    StateFile.read paths { content := .current state } = .managed state := by
  simp [StateFile.read, normalizeState, supported]

/-- What a repair writes of a state that was read is supported. -/
theorem supportedState_repaired {content : StateContent} {state : ManagedSetupState} {skill mcp : SetupTarget}
    {managed : List McpClient} {added : Bool} {now : String} (read : normalizeState paths content = some state) :
    supportedState paths (repairedState paths state skill mcp managed added now) = true := by
  obtain ⟨version, digest, platform, directory⟩ := normalizeState_some read
  simp [supportedState, repairedState, version, digest, platform, directory]

theorem supportedState_base {request : InstallRequest} {previous : Option ManagedSetupState}
    (checked : checkDistribution request.distribution = .ok ()) :
    supportedState paths (baseState paths request previous) = true := by
  unfold checkDistribution at checked
  split at checked
  · cases checked
  · next valid =>
    simp only [not_or, Bool.not_eq_false] at valid
    simp [supportedState, baseState, valid.1, valid.2.2.1]

end States

section Writers

variable {paths : SetupPaths} {origin before t : ClientDisk} {token : String} {updating : Bool}

/-- Where a writer of the state stops: without a backup the installation is in place. -/
structure Halted (paths : SetupPaths) (updating : Bool) (before s : ClientDisk) : Prop where
  backups : s.backups = before.backups
  sane : s.stateMissing = false → Standing paths s
  standing : updating = false → Standing paths s

theorem Halted.mono (halted : Halted paths false before t) : Halted paths updating before t :=
  ⟨halted.backups, halted.sane, fun _ => halted.standing rfl⟩

theorem Standing.halted (standing : Standing paths t) (backups : t.backups = before.backups) :
    Halted paths updating before t := ⟨backups, fun _ => standing, fun _ => standing⟩

theorem Standing.resumable (standing : Standing paths t) (backups : t.BackupsManaged paths) :
    Resumable paths origin t := by
  obtain ⟨directory, there, managed⟩ := standing
  refine ⟨fun other same => ?_, fun absent => ?_, backups⟩
  · cases there.symm.trans same
    exact managed
  · cases there.symm.trans absent

theorem Halted.resumable (halted : Halted paths updating before t) (managed : before.BackupsManaged paths)
    (there : t.stateMissing = false) : Resumable paths origin t :=
  (halted.sane there).resumable (managed.congr halted.backups)

/-- The installation directory while its state is written: what is aside is a state of the client, and it is
there when the state file is not. -/
structure Tended (paths : SetupPaths) (token : String) (before s : ClientDisk) : Prop where
  backups : s.backups = before.backups
  directory : ∃ directory, s.install = some directory ∧
    (∀ file, directory.previous token = some file → ∃ state, file.read paths = .managed state) ∧
    (∀ file, directory.state = some file → ∃ state, file.read paths = .managed state) ∧
    (directory.state = none → (directory.previous token).isSome = true)

theorem managed_of_state {directory : ClientDirectory} {file : StateFile} {state : ManagedSetupState}
    (there : directory.state = some file) (read : file.read paths = .managed state) :
    directory.Managed paths := ⟨state, by simp [ClientDirectory.managed, there, read]⟩

theorem Tended.sane (tended : Tended paths token before t) (there : t.stateMissing = false) :
    Standing paths t := by
  obtain ⟨directory, installed, _, states, _⟩ := tended.directory
  simp only [ClientDisk.stateMissing, installed, Option.any_some, Bool.not_eq_false'] at there
  obtain ⟨file, placed⟩ := Option.isSome_iff_exists.mp there
  obtain ⟨state, read⟩ := states file placed
  exact ⟨directory, installed, managed_of_state placed read⟩

theorem Tended.halted (tended : Tended paths token before t)
    (there : updating = false → t.stateMissing = false) : Halted paths updating before t :=
  ⟨tended.backups, tended.sane, fun alone => tended.sane (there alone)⟩

theorem Tended.resumable (tended : Tended paths token before t) (managed : before.BackupsManaged paths)
    (there : t.stateMissing = false) : Resumable paths origin t :=
  (tended.sane there).resumable (managed.congr tended.backups)

theorem careful_clientStep {Q : Unit → ClientDisk → Prop} {E : ClientDisk → Prop}
    {site : ClientSite} {f : ClientAnswer → ClientDisk → Option ClientDisk}
    (visit : ¬ exposes site t → Resumable paths origin t)
    (refused : ¬ strands site t .refused → E t)
    (stuck : ∀ answer reply, ¬ strands site t reply → f answer t = none → E t)
    (moved : ∀ answer u, f answer t = some u →
      (¬ strands site t (.done answer) → Q () u) ∧ (¬ strands site t (.lost answer) → E u)) :
    Resumes paths origin (clientStep site f) Q (fun _ => E) t := by
  refine ⟨visit, fun reply answered => ?_⟩
  cases reply with
  | refused => exact refused answered
  | done answer =>
    cases made : f answer t with
    | none => simpa [Reply.apply, made, Process.ofExcept, Process.careful] using stuck answer _ answered made
    | some u => simpa [Reply.apply, made, Process.ofExcept, Process.careful] using (moved answer u made).1 answered
  | lost answer =>
    cases made : f answer t with
    | none => simpa [Reply.apply, made, Process.ofExcept, Process.careful] using stuck answer _ answered made
    | some u => simpa [Reply.apply, made, Process.ofExcept, Process.careful] using (moved answer u made).2 answered

theorem careful_clientCall {Q : Unit → ClientDisk → Prop} {E : ClientDisk → Prop}
    {site : ClientSite} (visit : ¬ exposes site t → Resumable paths origin t) (failed : E t)
    (done : Q () t) : Resumes paths origin (clientCall site) Q (fun _ => E) t :=
  .of_wp (Process.wp_ask visit (fun _ => failed) fun _ _ _ => done)

theorem Standing.missing (standing : Standing paths t) : t.stateMissing = false := by
  obtain ⟨directory, installed, state, managed⟩ := standing
  simp only [ClientDisk.stateMissing, installed, Option.any_some, Bool.not_eq_false']
  cases placed : directory.state with
  | none => simp [ClientDirectory.managed, placed] at managed
  | some file => rfl

/-- A step of the writers inside the installation directory. -/
theorem Tended.onInstall {f : ClientDirectory → Option ClientDirectory} {u : ClientDisk}
    (tended : Tended paths token before t) (moved : ClientDisk.onInstall f t = some u)
    (keeps : ∀ directory changed, t.install = some directory → f directory = some changed →
      (∀ file, changed.previous token = some file → ∃ state, file.read paths = .managed state) ∧
      (∀ file, changed.state = some file → ∃ state, file.read paths = .managed state) ∧
      (changed.state = none → (changed.previous token).isSome = true)) :
    Tended paths token before u := by
  obtain ⟨directory, installed, changed⟩ := Option.bind_eq_some_iff.mp moved
  obtain ⟨next, made, rfl⟩ := Option.map_eq_some_iff.mp changed
  exact ⟨tended.backups, next, rfl, keeps directory next installed made⟩

/-- The handler of a writer, after it found the state file missing. -/
theorem careful_returnAside (managed : before.BackupsManaged paths) (tended : Tended paths token before t) :
    Resumes paths origin (do
      let aside ← asideExists (.lookAside (.repairing updating)) token
      if aside then clientStep (.returnState (.repairing updating)) fun _ => ClientDisk.moveBack token
      else pure () : ClientProcess Unit) (fun _ => Halted paths updating before)
      (fun _ => Halted paths updating before) t := by
  obtain ⟨directory, installed, valid, states, aside⟩ := tended.directory
  have visit : t.stateMissing = false → Resumable paths origin t := fun there => tended.resumable managed there
  refine .bind (.probe (fun closed => visit (Bool.eq_false_iff.mpr closed)) ?_ fun reply failed fine =>
    tended.halted fun alone => Bool.eq_false_iff.mpr fun missing => fine ?_)
  · cases seen : t.install.any fun directory => (directory.previous token).isSome with
    | false =>
      refine tended.halted fun _ => Bool.eq_false_iff.mpr fun missing => ?_
      simp only [ClientDisk.stateMissing, installed, Option.any_some, Bool.not_eq_true', Option.isSome_eq_false_iff,
        Option.isNone_iff_eq_none] at missing
      simp [installed, aside missing] at seen
    | true =>
      simp only [installed, Option.any_some] at seen
      obtain ⟨file, there⟩ := Option.isSome_iff_exists.mp seen
      obtain ⟨state, read⟩ := valid file there
      have returned : ∀ u, t.moveBack token = some u → Halted paths updating before u := by
        intro u moved
        simp only [ClientDisk.moveBack, ClientDisk.onInstall, installed, Option.bind_some, there, Option.map_some,
          Option.some.injEq] at moved
        cases moved
        exact Standing.halted ⟨_, rfl, state, by simp [ClientDirectory.managed, read]⟩ tended.backups
      refine careful_clientStep (fun closed => visit (Bool.eq_false_iff.mpr closed)) (fun fine =>
        tended.halted fun alone => Bool.eq_false_iff.mpr fun missing => fine ?_) (fun _ _ _ none => ?_)
        fun _ u moved => ⟨fun _ => returned u moved, fun _ => returned u moved⟩
      · subst alone
        exact ⟨missing, rfl⟩
      · simp [ClientDisk.moveBack, ClientDisk.onInstall, installed, there] at none
  · subst alone
    exact ⟨missing, failed⟩

/-- The handler of a writer brings the state file back, or leaves it to the backup. -/
theorem careful_returnState {existed : Bool} {error : ClientError} {Q : Unit → ClientDisk → Prop}
    (managed : before.BackupsManaged paths) (tended : Tended paths token before t)
    (own : existed = false → t.stateMissing = false) :
    Resumes paths origin (do
      returnState (.repairing updating) token existed
      throw error : ClientProcess Unit) Q (fun _ => Halted paths updating before) t := by
  have visit : ∀ {u}, Tended paths token before u → u.stateMissing = false → Resumable paths origin u :=
    fun held there => held.resumable managed there
  have stops : ∀ {u} {site : ClientSite} {reply : Reply ClientAnswer}, Tended paths token before u →
      ¬ strands site u reply → (updating = false → u.stateMissing = true → strands site u reply) →
      Halted paths updating before u := fun held fine bad =>
    held.halted fun alone => Bool.eq_false_iff.mpr fun missing => fine (bad alone missing)
  refine .bind (.bind (careful_clientStep (fun closed => visit tended (Bool.eq_false_iff.mpr closed))
    (fun fine => stops tended fine ?_) (fun answer reply _ none => ?_) fun answer u moved => ?_))
  · rintro rfl missing
    exact ⟨missing, by rintro ⟨_, same⟩; cases same⟩
  · obtain ⟨directory, installed, _⟩ := tended.directory
    simp [ClientDisk.dropPart, ClientDisk.onInstall, installed] at none
  have dropped : Tended paths token before u := by
    refine tended.onInstall moved fun directory changed installed same => ?_
    obtain ⟨other, there, held⟩ := tended.directory
    cases there.symm.trans installed
    cases same
    exact held
  have same : u.stateMissing = t.stateMissing := by
    obtain ⟨directory, installed, _⟩ := tended.directory
    simp only [ClientDisk.dropPart, ClientDisk.onInstall, installed, Option.bind_some, Option.map_some,
      Option.some.injEq] at moved
    simp [ClientDisk.stateMissing, installed, ← moved]
  refine ⟨fun _ => ?_, fun fine => dropped.halted fun alone => ?_⟩
  · cases existed with
    | false => exact dropped.halted fun _ => same.trans (own rfl)
    | true =>
      refine .bind (.probe (fun closed => visit dropped (Bool.eq_false_iff.mpr closed)) ?_ fun _ _ _ =>
        careful_returnAside managed dropped)
      cases there : u.stateMissing with
      | true =>
        have unseen : (u.install.any fun directory => directory.state.isSome) = false := by
          simpa [ClientDisk.stateMissing] using there
        rw [unseen]
        exact careful_returnAside managed dropped
      | false =>
        have seen : (u.install.any fun directory => directory.state.isSome) = true := by
          simpa [ClientDisk.stateMissing] using there
        rw [seen]
        exact dropped.halted fun _ => there
  · refine Bool.eq_false_iff.mpr fun missing => fine ?_
    subst alone
    exact ⟨same ▸ missing, by rintro ⟨_, same⟩; cases same⟩

/-- The error of a writer, for its handler. -/
def Caught (paths : SetupPaths) (token : String) (existed : Bool) (before s : ClientDisk) : Prop :=
  Tended paths token before s ∧ (existed = false → s.stateMissing = false)

theorem careful_settleState {existed : Bool} {directory : ClientDirectory} {file : StateFile}
    (managed : before.BackupsManaged paths) (tended : Tended paths token before t)
    (installed : t.install = some directory) (placed : directory.state = some file) :
    Resumes paths origin (do
      (if paths.platform ≠ .win32 then clientCall (.chmodState (.repairing updating)) else pure ())
      (if existed then clientStep (.removeAside (.repairing updating)) fun _ => ClientDisk.dropAside token
      else pure ()) : ClientProcess Unit)
      (fun _ => Halted paths false before) (fun _ => Caught paths token existed before) t := by
  have there : t.stateMissing = false := by simp [ClientDisk.stateMissing, installed, placed]
  have visit : ∀ closed : Prop, closed → Resumable paths origin t := fun _ _ => tended.resumable managed there
  have caught : Caught paths token existed before t := ⟨tended, fun _ => there⟩
  have removes : Resumes paths origin
      (if existed then clientStep (.removeAside (.repairing updating)) fun _ => ClientDisk.dropAside token
      else pure () : ClientProcess Unit)
      (fun _ => Halted paths false before) (fun _ => Caught paths token existed before) t := by
    cases existed with
    | false => exact tended.halted fun _ => there
    | true =>
      refine careful_clientStep (visit _) (fun _ => caught) (fun _ _ _ none => ?_) fun answer u moved => ?_
      · simp [ClientDisk.dropAside, ClientDisk.onInstall, installed] at none
      have stays : Tended paths token before u := tended.onInstall moved fun next changed same made => by
        obtain ⟨other, sames, _, states, _⟩ := tended.directory
        cases sames.symm.trans installed
        cases installed.symm.trans same
        cases made
        exact ⟨by simp, states, by simp [placed]⟩
      simp only [ClientDisk.dropAside, ClientDisk.onInstall, installed, Option.bind_some, Option.map_some,
        Option.some.injEq] at moved
      have still : u.stateMissing = false := by simp [ClientDisk.stateMissing, ← moved, placed]
      exact ⟨fun _ => stays.halted fun _ => still, fun _ => ⟨stays, fun _ => still⟩⟩
  refine .bind ?_
  by_cases windows : paths.platform = .win32
  · rw [if_neg (not_not.mpr windows)]
    exact removes
  · rw [if_pos windows]
    exact careful_clientCall (visit _) caught removes

/-- The new state is renamed over the state file, or the handler is given what is left. -/
theorem careful_publishState {existed : Bool} {directory : ClientDirectory} {state : ManagedSetupState}
    (managed : before.BackupsManaged paths) (caught : Caught paths token existed before t)
    (installed : t.install = some directory) (supported : supportedState paths state = true)
    (written : directory.part token = some { content := .current state }) :
    Resumes paths origin (do
      clientStep (.renamePart (.repairing updating)) fun _ => ClientDisk.publishPart token
      (if paths.platform ≠ .win32 then clientCall (.chmodState (.repairing updating)) else pure ())
      (if existed then clientStep (.removeAside (.repairing updating)) fun _ => ClientDisk.dropAside token
      else pure ()) : ClientProcess Unit)
      (fun _ => Halted paths false before) (fun _ => Caught paths token existed before) t := by
  obtain ⟨tended, own⟩ := caught
  refine .bind (careful_clientStep (fun closed => tended.resumable managed (Bool.eq_false_iff.mpr closed))
    (fun _ => ⟨tended, own⟩) (fun _ _ _ none => ?_) fun answer u moved => ?_)
  · simp [ClientDisk.publishPart, ClientDisk.onInstall, installed, written] at none
  have published : Tended paths token before u := tended.onInstall moved fun next changed same made => by
    obtain ⟨other, sames, valid, _, _⟩ := tended.directory
    cases sames.symm.trans installed
    cases installed.symm.trans same
    simp only [written, Option.map_some, Option.some.injEq] at made
    cases made
    refine ⟨valid, ?_, by simp⟩
    rintro _ ⟨⟩
    exact ⟨state, StateFile.read_current supported⟩
  simp only [ClientDisk.publishPart, ClientDisk.onInstall, installed, Option.bind_some, written,
    Option.map_some, Option.some.injEq] at moved
  have there : u.stateMissing = false := by simp [ClientDisk.stateMissing, ← moved]
  exact ⟨fun _ => careful_settleState managed published (by rw [← moved]) rfl,
    fun _ => ⟨published, fun _ => there⟩⟩

theorem careful_swapState {existed : Bool} {directory : ClientDirectory} {state old : ManagedSetupState}
    {file : StateFile} (managed : before.BackupsManaged paths) (backups : t.backups = before.backups)
    (installed : t.install = some directory) (placed : directory.state = some file)
    (read : file.read paths = .managed old) (fresh : directory.previous token = none)
    (supported : supportedState paths state = true)
    (written : directory.part token = some { content := .current state }) :
    Resumes paths origin (swapState paths (.repairing updating) token existed)
      (fun _ => Halted paths false before) (fun _ => Caught paths token existed before) t := by
  have there : t.stateMissing = false := by simp [ClientDisk.stateMissing, installed, placed]
  have start : Tended paths token before t := by
    refine ⟨backups, directory, installed, by simp [fresh], ?_, by simp [placed]⟩
    rw [placed]
    rintro _ ⟨⟩
    exact ⟨old, read⟩
  refine .bind ?_
  cases existed with
  | false => exact careful_publishState managed ⟨start, fun _ => there⟩ installed supported written
  | true =>
    refine careful_clientStep (fun _ => start.resumable managed there) (fun _ => ⟨start, fun _ => there⟩)
      (fun _ _ _ none => ?_) fun answer u moved => ?_
    · simp [ClientDisk.moveAside, ClientDisk.onInstall, installed, placed] at none
    have aside : Tended paths token before u := start.onInstall moved fun next changed same made => by
      cases installed.symm.trans same
      simp only [placed, Option.map_some, Option.some.injEq] at made
      cases made
      refine ⟨?_, by simp, by simp⟩
      simp only [if_true, Option.some.injEq]
      rintro _ rfl
      exact ⟨old, read⟩
    simp only [ClientDisk.moveAside, ClientDisk.onInstall, installed, Option.bind_some, placed,
      Option.map_some, Option.some.injEq] at moved
    have caught : Caught paths token true before u := ⟨aside, by simp⟩
    have emptied : u.install = some { directory with
        state := none
        previous := fun other => if other = token then some file else directory.previous other } := by
      rw [← moved]
    exact ⟨fun _ => careful_publishState managed caught emptied supported written, fun _ => caught⟩

theorem careful_swapped {existed : Bool} {directory : ClientDirectory} {state old : ManagedSetupState}
    {file : StateFile} (managed : before.BackupsManaged paths) (backups : t.backups = before.backups)
    (installed : t.install = some directory) (placed : directory.state = some file)
    (read : file.read paths = .managed old) (fresh : directory.previous token = none)
    (supported : supportedState paths state = true)
    (written : directory.part token = some { content := .current state }) :
    Resumes paths origin
      (tryCatch (swapState paths (.repairing updating) token existed) fun error => do
        returnState (.repairing updating) token existed
        throw error) (fun _ => Halted paths false before) (fun _ => Halted paths updating before) t :=
  .handle ((careful_swapState managed backups installed placed read fresh supported written).mono
    (fun _ _ held => held) fun _ _ caught => careful_returnState managed caught.1 caught.2)

/-- The directory with a new state beside its state file. -/
def ClientDirectory.withPart (token : String) (file : StateFile) (directory : ClientDirectory) :
    ClientDirectory :=
  { directory with part := fun other => if other = token then some file else directory.part other }

/-- What the exclusive creation of the new state does. -/
theorem createPart_some {state : ManagedSetupState} {directory : ClientDirectory} {answer : ClientAnswer}
    {u : ClientDisk} (installed : t.install = some directory)
    (made : (match ClientDisk.createPart answer.token { content := .current state } t with
      | none => .error ClientError.host
      | some written => .ok (answer.token, written)) = Except.ok (token, u)) :
    token = answer.token ∧
      u = { t with install := some (directory.withPart answer.token { content := .current state }) } := by
  simp only [ClientDisk.createPart, ClientDisk.onInstall, installed, Option.bind_some] at made
  split at made
  · cases made
  · next written same =>
    obtain ⟨changed, added, rfl⟩ := Option.map_eq_some_iff.mp same
    split at added
    · cases added
    · cases added
      cases made
      exact ⟨rfl, rfl⟩

theorem careful_repairState {state : ManagedSetupState} (managed : before.BackupsManaged paths)
    (halted : Halted paths false before t) (supported : supportedState paths state = true) :
    Resumes paths origin (writeManagedState paths (.repairing updating) state)
      (fun _ => Halted paths false before) (fun _ => Halted paths updating before) t := by
  obtain ⟨directory, installed, old, found⟩ := halted.standing rfl
  have standing := halted.standing rfl
  have visit : Resumable paths origin t := halted.resumable managed standing.missing
  cases placed : directory.state with
  | none => simp [ClientDirectory.managed, placed] at found
  | some file =>
    have read : file.read paths = .managed old := by simpa [ClientDirectory.managed, placed] using found
    have parts : ∀ token, Halted paths false before
        { t with install := some (directory.withPart token { content := .current state }) } := fun token =>
      Standing.halted ⟨_, rfl, old, found⟩ halted.backups
    refine .bind (.act (fun _ => visit) (fun _ => halted.mono) (fun _ _ _ => halted.mono) ?_ ?_)
    · intro answer token u made fine
      obtain ⟨rfl, rfl⟩ := createPart_some installed made
      have fresh : directory.previous answer.token = none := Option.not_isSome_iff_eq_none.mp fun used =>
        fine ⟨answer, .inl rfl, by simpa [installed] using used⟩
      have body : ∀ existed, Resumes paths origin
          (tryCatch (swapState paths (.repairing updating) answer.token existed) fun error => do
            returnState (.repairing updating) answer.token existed
            throw error) (fun _ => Halted paths false before) (fun _ => Halted paths updating before)
          { t with install := some (directory.withPart answer.token { content := .current state }) } := fun existed =>
        careful_swapped managed halted.backups rfl placed read fresh supported (if_pos rfl)
      have parted := parts answer.token
      exact .bind (.probe (fun _ => parted.resumable managed (parted.standing rfl).missing) (body _)
        fun _ _ _ => body false)
    · intro answer token u made fine
      obtain ⟨rfl, rfl⟩ := createPart_some installed made
      exact (parts answer.token).mono

/-- Where an installation has no state file yet, only the backup can be brought back. -/
theorem bare_halted (missing : t.stateMissing = true) (backups : t.backups = before.backups)
    (backed : updating = true) : Halted paths updating before t :=
  ⟨backups, fun there => (Bool.false_ne_true (there.symm.trans missing)).elim,
    fun alone => (Bool.false_ne_true (alone.symm.trans backed)).elim⟩

/-- The handler of the first writer; there is no state to bring back. -/
theorem careful_discardPart {error : ClientError} {Q : Unit → ClientDisk → Prop}
    (managed : before.BackupsManaged paths) (halted : Halted paths updating before t) :
    Resumes paths origin (do
      returnState (.installing updating) token false
      throw error : ClientProcess Unit) Q (fun _ => Halted paths updating before) t := by
  have dropped : ∀ u, t.dropPart token = some u → Halted paths updating before u := by
    intro u moved
    obtain ⟨directory, installed, changed⟩ := Option.bind_eq_some_iff.mp moved
    obtain ⟨next, made, rfl⟩ := Option.map_eq_some_iff.mp changed
    cases made
    have still : Standing paths t → Standing paths { t with install := some { directory with
        part := fun other => if other = token then none else directory.part other } } := by
      rintro ⟨other, there, held⟩
      cases installed.symm.trans there
      exact ⟨_, rfl, held⟩
    refine ⟨halted.backups, fun there => still (halted.sane ?_), fun alone => still (halted.standing alone)⟩
    simpa [ClientDisk.stateMissing, installed] using there
  exact .bind (.bind (careful_clientStep (fun closed => halted.resumable managed (Bool.eq_false_iff.mpr closed))
    (fun _ => halted) (fun _ _ _ _ => halted) fun _ u moved => ⟨fun _ => dropped u moved, fun _ => dropped u moved⟩))

theorem careful_firstSwap {directory : ClientDirectory} {state : ManagedSetupState}
    (managed : before.BackupsManaged paths) (backups : t.backups = before.backups)
    (installed : t.install = some directory) (bare : directory.state = none)
    (supported : supportedState paths state = true)
    (written : directory.part token = some { content := .current state }) :
    Resumes paths origin
      (tryCatch (swapState paths (.installing updating) token false) fun error => do
        returnState (.installing updating) token false
        throw error) (fun _ => Halted paths false before) (fun _ => Halted paths updating before) t := by
  have missing : t.stateMissing = true := by simp [ClientDisk.stateMissing, installed, bare]
  have exposed : exposes (.renamePart (.installing updating)) t := trivial
  have swaps : Resumes paths origin (swapState paths (.installing updating) token false)
      (fun _ => Halted paths false before) (fun _ => Halted paths updating before) t := by
    refine .bind (.bind (careful_clientStep (fun closed => (closed exposed).elim) (fun fine => ?_)
      (fun _ _ _ none => ?_) fun answer u moved => ?_))
    · cases updating with
      | false => exact (fine rfl).elim
      | true => exact bare_halted missing backups rfl
    · simp [ClientDisk.publishPart, ClientDisk.onInstall, installed, written] at none
    simp only [ClientDisk.publishPart, ClientDisk.onInstall, installed, Option.bind_some, written,
      Option.map_some, Option.some.injEq] at moved
    have settled : Halted paths false before u := by
      rw [← moved]
      exact Standing.halted ⟨_, rfl, managed_of_state rfl (StateFile.read_current supported)⟩ backups
    refine ⟨fun _ => .bind ?_, fun _ => settled.mono⟩
    by_cases windows : paths.platform = .win32
    · rw [if_neg (not_not.mpr windows)]
      exact settled
    · rw [if_pos windows]
      exact careful_clientCall (fun _ => settled.resumable managed (settled.standing rfl).missing)
        settled.mono settled
  exact .handle (swaps.mono (fun _ _ held => held) fun _ _ halted => careful_discardPart managed halted)

theorem careful_installState {directory : ClientDirectory} {state : ManagedSetupState}
    (managed : before.BackupsManaged paths) (backups : t.backups = before.backups)
    (installed : t.install = some directory) (bare : directory.state = none)
    (parts : ∀ token, directory.part token = none) (supported : supportedState paths state = true) :
    Resumes paths origin (writeManagedState paths (.installing updating) state)
      (fun _ => Halted paths false before) (fun _ => Halted paths updating before) t := by
  have missing : t.stateMissing = true := by simp [ClientDisk.stateMissing, installed, bare]
  have failed : ∀ u : ClientDisk, u.stateMissing = true → u.backups = before.backups → ∀ reply, Failed reply →
      ¬ strands (.createPart (.installing updating)) t reply → Halted paths updating before u := by
    intro u still same reply bad fine
    cases updating with
    | false => exact absurd bad fine
    | true => exact bare_halted still same rfl
  refine .bind (.act (fun closed => (closed trivial).elim) (failed t missing backups _ (by simp [Failed])) ?_ ?_ ?_)
  · intro answer error stuck
    simp [ClientDisk.createPart, ClientDisk.onInstall, installed, parts] at stuck
  · intro answer token u made _
    obtain ⟨rfl, rfl⟩ := createPart_some installed made
    have body : Resumes paths origin
        (tryCatch (swapState paths (.installing updating) answer.token false) fun error => do
          returnState (.installing updating) answer.token false
          throw error) (fun _ => Halted paths false before) (fun _ => Halted paths updating before)
        { t with install := some (directory.withPart answer.token { content := .current state }) } :=
      careful_firstSwap managed backups rfl bare supported (if_pos rfl)
    refine .bind (.probe (fun closed => (closed trivial).elim) ?_ fun _ _ _ => body)
    have unseen : (some (directory.withPart answer.token { content := .current state })).any
        (fun other => other.state.isSome) = false := by simp [ClientDirectory.withPart, bare]
    rw [unseen]
    exact body
  · intro answer token u made fine
    obtain ⟨rfl, rfl⟩ := createPart_some installed made
    exact failed _ (by simp [ClientDisk.stateMissing, ClientDirectory.withPart, bare]) backups _
      (by simp [Failed]) fine

end Writers

end LatexRenderer
