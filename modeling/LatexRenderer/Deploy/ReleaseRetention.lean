import LatexRenderer.Deploy.ReleaseLedgers

/-! # What the retention of releases keeps

Everything in the trash is recorded in the ledger, on the disk as it is and on every disk that a power loss
may bring back. A directory is moved to the trash or removed only while its entry is recorded so, and its
release is none that the call, the ledger or the current link keeps.
-/

namespace LatexRenderer

open Machine

/-- What is kept of the files. -/
structure RetentionDisk.Sound (disk : RetentionDisk) : Prop where
  ledger : ∀ value, disk.ledger = some value → value.Valid
  trash : ∀ name directory, disk.releases name = some directory → inTrash name = true →
    directory.Removable ∧ ∃ value, disk.ledger = some value ∧ ∃ entry ∈ value.deleting, entry.trash = name

namespace RetentionDisk

variable {disk : RetentionDisk}

theorem Sound.next (sound : disk.Sound) (next : Bool) : Sound { disk with next := next } :=
  ⟨sound.ledger, sound.trash⟩

/-- What is not trash changes freely, and trash may go or become less. -/
theorem Sound.place (sound : disk.Sound) {name : String} {directory : Option ReleaseDirectory}
    (fits : ∀ placed, directory = some placed → inTrash name = true →
      placed.Removable ∧ ∃ value, disk.ledger = some value ∧ ∃ entry ∈ value.deleting, entry.trash = name) :
    (disk.place name directory).Sound := by
  refine ⟨sound.ledger, fun other placed found trash => ?_⟩
  change (if other = name then directory else disk.releases other) = some placed at found
  split at found
  · next same =>
    subst same
    exact fits placed found trash
  · exact sound.trash other placed found trash

/-- A ledger that still records what is in the trash may be written. -/
theorem Sound.write (sound : disk.Sound) {value : ReleaseLedger} (valid : value.Valid)
    (records : ∀ old, disk.ledger = some old → ∀ entry ∈ old.deleting,
      entry ∈ value.deleting ∨ disk.releases entry.trash = none) :
    Sound { disk with ledger := some value, next := false } := by
  refine ⟨?_, fun name directory found trash => ?_⟩
  · rintro other same
    cases same
    exact valid
  · obtain ⟨removable, old, known, entry, listed, rfl⟩ := sound.trash name directory found trash
    refine ⟨removable, value, rfl, entry, ?_, rfl⟩
    rcases records old known entry listed with kept | gone
    · exact kept
    · cases gone.symm.trans found

end RetentionDisk

/-- The entry is in the ledger on the disk, and stays there when the power is lost. -/
def DeletingRelease.Recorded (entry : DeletingRelease) (s : Journaled RetentionDisk) : Prop :=
  s.Always fun disk => ∃ value, disk.ledger = some value ∧ entry ∈ value.deleting

/-- Neither the current link nor the ledger nor a call with these options keeps the name. -/
structure RetentionDisk.Spares (root : List String) (options : CollectOptions) (name : String)
    (disk : RetentionDisk) : Prop where
  current : disk.current ≠ some (root ++ [name])
  named : name ∉ options.protectedIds
  previous : ∀ value, disk.ledger = some value → value.previous ≠ some name
  verified : ∀ value, disk.ledger = some value → name ∉ value.successful.map VerifiedRelease.id

/-- How a written ledger comes from the old one: only the current release is entered as verified, only a
current and verified release becomes the previous one, and an entry leaves the journal when its directory
is gone. -/
structure LedgerChange (root : List String) (disk : RetentionDisk) (value : ReleaseLedger) : Prop where
  verified : value.successful = (disk.ledger.getD emptyLedger).successful ∨
    ∃ id now, disk.current = some (root ++ [id]) ∧
      value.successful = enterVerified id now (disk.ledger.getD emptyLedger).successful
  previous : value.previous = (disk.ledger.getD emptyLedger).previous ∨
    ∃ id, disk.current = some (root ++ [id]) ∧ value.previous = some id ∧
      id ∈ value.successful.map VerifiedRelease.id
  deleted : ∀ entry ∈ (disk.ledger.getD emptyLedger).deleting,
    entry ∈ value.deleting ∨ (disk.releases entry.id = none ∧ disk.releases entry.trash = none)

/-- What a step on the directory of a recorded release needs. -/
structure DeletingRelease.Free (root : List String) (options : CollectOptions) (entry : DeletingRelease)
    (s : Journaled RetentionDisk) : Prop where
  recorded : entry.Recorded s
  original : s.current.Spares root options entry.id
  trash : s.current.Spares root options entry.trash

/-- What the steps need. -/
def RetentionSite.Needs (root : List String) : RetentionSite → Journaled RetentionDisk → Prop
  | .renameLedger value, s => LedgerChange root s.current value
  | .renameRelease options entry, s => entry.Free root options s
  | .unlinkTrash options entry, s => entry.Free root options s
  | .removeTrash options entry, s => entry.Free root options s
  | _, _ => True

/-- The condition at a step. -/
def RetentionSite.Meets (root : List String) (site : RetentionSite) (s : Journaled RetentionDisk) : Prop :=
  s.Always RetentionDisk.Sound ∧ site.Needs root s

/-- An error leaves sound files. -/
abbrev RetentionFailed (_ : RetentionError) (s : Journaled RetentionDisk) : Prop :=
  s.Always RetentionDisk.Sound

section Rules

variable {root : List String} {s : Journaled RetentionDisk}
  {allowed : RetentionSite → Reply RetentionAnswer → Prop} {β : Type}

theorem wp_retentionAsk {Q : β → Journaled RetentionDisk → Prop} {site : RetentionSite}
    {f : RetentionAnswer → RetentionDisk → Except RetentionError β} (meets : site.Meets root s)
    (reads : ∀ answer value, f answer s.current = .ok value → Q value s) :
    (retentionAsk site f).wp allowed Q RetentionFailed (RetentionSite.Meets root) s :=
  Process.wp_ask meets (fun _ => meets.1) reads

theorem wp_retentionCall {Q : Unit → Journaled RetentionDisk → Prop} {site : RetentionSite}
    (meets : site.Meets root s) (returns : Q () s) :
    (retentionCall site).wp allowed Q RetentionFailed (RetentionSite.Meets root) s :=
  wp_retentionAsk meets fun _ _ _ => returns

theorem wp_retentionModify {Q : Unit → Journaled RetentionDisk → Prop} {site : RetentionSite}
    {f : RetentionDisk → RetentionDisk} (meets : site.Meets root s) (sound : (f s.current).Sound)
    (changed : Q () (s.update f)) :
    (retentionModify site f).wp allowed Q RetentionFailed (RetentionSite.Meets root) s :=
  Process.wp_modify meets (fun _ => meets.1) (fun _ => Journaled.Always.update meets.1 sound) changed

theorem wp_retentionSync {Q : Unit → Journaled RetentionDisk → Prop} {site : RetentionSite}
    (meets : site.Meets root s) (synced : Q () s.sync) :
    (Process.modify site Journaled.sync : RetentionProcess Unit).wp allowed Q RetentionFailed
      (RetentionSite.Meets root) s :=
  Process.wp_modify meets (fun _ => meets.1) (fun _ => Journaled.Always.sync meets.1) synced

theorem wp_retentionAct {Q : Unit → Journaled RetentionDisk → Prop} {site : RetentionSite}
    {f : RetentionAnswer → Journaled RetentionDisk → Except RetentionError (Unit × Journaled RetentionDisk)}
    (meets : site.Meets root s)
    (moves : ∀ answer t, f answer s = .ok ((), t) → Q () t ∧ t.Always RetentionDisk.Sound) :
    (Process.act site f).wp allowed Q RetentionFailed (RetentionSite.Meets root) s := by
  refine Process.wp_act.mpr ⟨meets, fun reply _ => ?_⟩
  cases reply with
  | done answer =>
    cases moved : f answer s with
    | error error => simpa [Reply.apply, moved, Process.ofExcept] using meets.1
    | ok pair => simpa [Reply.apply, moved, Process.ofExcept] using (moves answer pair.2 moved).1
  | refused => exact meets.1
  | lost answer =>
    cases moved : f answer s with
    | error error => simpa [Reply.apply, moved, Process.ofExcept] using meets.1
    | ok pair => simpa [Reply.apply, moved, Process.ofExcept] using (moves answer pair.2 moved).2

theorem wp_writeLedger {Q : Unit → Journaled RetentionDisk → Prop} {value : ReleaseLedger}
    (sound : s.Always RetentionDisk.Sound) (change : LedgerChange root s.current value)
    (written : RetentionDisk.Sound { s.current with ledger := some value, next := false })
    (saved : Q () ⟨{ s.current with ledger := some value, next := false }, []⟩) :
    (writeLedger value).wp allowed Q RetentionFailed (RetentionSite.Meets root) s := by
  refine Process.wp_bind.mpr (wp_retentionAct ⟨sound, trivial⟩ fun _ t created => ?_)
  split at created
  · cases created
  · cases created
    have made := Journaled.Always.update sound (f := fun current => { current with next := true })
      (sound.1.next true)
    refine ⟨Process.wp_bind.mpr ?_, made⟩
    refine wp_retentionModify ⟨made, ⟨change.verified, change.previous, change.deleted⟩⟩ written ?_
    exact wp_retentionSync ⟨Journaled.Always.update made written, trivial⟩ saved

/-- `saveLedger`: the ledger is replaced as a whole, and safe afterwards. -/
theorem wp_saveLedger {Q : Unit → Journaled RetentionDisk → Prop} {value : ReleaseLedger}
    (sound : s.Always RetentionDisk.Sound) (change : LedgerChange root s.current value)
    (written : RetentionDisk.Sound { s.current with ledger := some value, next := false })
    (saved : Q () ⟨{ s.current with ledger := some value, next := false }, []⟩) :
    (saveLedger value).wp allowed Q RetentionFailed (RetentionSite.Meets root) s := by
  refine Process.wp_bind.mpr (wp_retentionAsk ⟨sound, trivial⟩ fun _ stale _ => ?_)
  refine Process.wp_bind.mpr (Process.wp_ite.mpr ⟨fun _ => ?_, fun _ => ?_⟩)
  · have removed := sound.1.next false
    exact wp_retentionModify ⟨sound, trivial⟩ removed (wp_writeLedger (Journaled.Always.update sound removed)
      ⟨change.verified, change.previous, change.deleted⟩ written saved)
  · exact wp_writeLedger sound change written saved

/-- `activeRelease`: what it reads is where the current link leads. -/
theorem wp_activeRelease {Q : Option String → Journaled RetentionDisk → Prop}
    (sound : s.Always RetentionDisk.Sound)
    (reads : ∀ current, (∀ id, current = some id →
      s.current.current = some (root ++ [id]) ∧ validReleaseId id = true) → Q current s) :
    (activeRelease root).wp allowed Q RetentionFailed (RetentionSite.Meets root) s := by
  refine wp_retentionAsk ⟨sound, trivial⟩ fun _ current read => ?_
  cases link : s.current.current with
  | none =>
    simp only [link, Except.ok.injEq] at read
    exact read ▸ reads none (by simp)
  | some path =>
    simp only [link] at read
    split at read
    · cases read
    · next inside =>
      cases found : sealedRelease (path.getLastD "") s.current with
      | error error =>
        simp only [found, bind, Except.bind] at read
        cases read
      | ok directory =>
        simp only [found, bind, Except.bind] at read
        split at read
        · next valid =>
          cases read
          refine reads _ fun id same => ?_
          cases same
          refine ⟨?_, valid⟩
          obtain ⟨nonempty, parent⟩ := not_or.mp inside
          rw [link, ← not_not.mp parent, List.getLastD_eq_getLast?, List.getLast?_eq_some_getLast nonempty]
          exact congrArg some (List.dropLast_append_getLast nonempty).symm
        · cases read

theorem wp_releaseIdentity {Q : Unit → Journaled RetentionDisk → Prop} {id : String}
    (sound : s.Always RetentionDisk.Sound) (reads : Q () s) :
    (releaseIdentity id).wp allowed Q RetentionFailed (RetentionSite.Meets root) s :=
  Process.wp_bind.mpr (Process.wp_require.mpr
    ⟨fun _ => wp_retentionAsk ⟨sound, trivial⟩ fun _ _ _ => reads, fun _ => sound⟩)

theorem wp_inspectTree {Q : Unit → Journaled RetentionDisk → Prop} {mounts : List (List String)}
    {name : String} (sound : s.Always RetentionDisk.Sound)
    (reads : (∀ directory, s.current.releases name = some directory → directory.Removable) → Q () s) :
    (inspectTree root mounts name).wp allowed Q RetentionFailed (RetentionSite.Meets root) s := by
  refine wp_retentionAsk ⟨sound, trivial⟩ fun _ _ passed => reads fun directory found => ?_
  simp only [found] at passed
  exact ReleaseDirectory.removable_of_deletionTree passed

theorem wp_lookRelease {Q : Bool → Journaled RetentionDisk → Prop} {name : String}
    (sound : s.Always RetentionDisk.Sound) (reads : Q (s.current.releases name).isSome s) :
    (lookRelease name).wp allowed Q RetentionFailed (RetentionSite.Meets root) s := by
  refine wp_retentionAsk ⟨sound, trivial⟩ fun _ there read => ?_
  cases read
  exact reads

end Rules

section Operations

variable {root : List String} {s : Journaled RetentionDisk}
  {allowed : RetentionSite → Reply RetentionAnswer → Prop}

theorem validLedger_getD {found : Option ReleaseLedger} {ledger : ReleaseLedger}
    (passed : validateLedger (found.getD ⟨none, [], []⟩) = .ok ledger) :
    ledger = found.getD emptyLedger ∧ ledger.Valid := by
  obtain ⟨same, valid⟩ := validateLedger_ok.mp passed
  exact ⟨same, same ▸ valid⟩

/-- The first verified release is entered like every other. -/
theorem firstVerified_eq (current : Option String) (now : Nat) (ledger : ReleaseLedger) :
    firstVerified current now ledger = ledger ∨
      ∃ id, current = some id ∧ firstVerified current now ledger =
        { ledger with successful := enterVerified id now ledger.successful } := by
  cases current with
  | none => exact .inl rfl
  | some id =>
    by_cases empty : ledger.successful = []
    · refine .inr ⟨id, rfl, ?_⟩
      simp [firstVerified, empty, enterVerified]
    · exact .inl (if_neg empty)

theorem rememberPrevious_eq (current : Option String) (ledger : ReleaseLedger) :
    rememberPrevious current ledger = ledger ∨
      ∃ id, current = some id ∧ id ∈ ledger.successful.map VerifiedRelease.id ∧
        rememberPrevious current ledger = { ledger with previous := some id } := by
  cases current with
  | none => exact .inl rfl
  | some id =>
    by_cases known : ledger.successful.any (·.id == id) = true
    · refine .inr ⟨id, rfl, ?_, if_pos known⟩
      obtain ⟨entry, member, same⟩ := List.any_eq_true.mp known
      exact List.mem_map.mpr ⟨entry, member, by simpa using same⟩
    · exact .inl (if_neg known)

theorem wp_captureReleaseRetention {now : Fin 9007199254740992} (sound : s.Always RetentionDisk.Sound) :
    (captureReleaseRetention root now).wp allowed (fun _ t => t.Always RetentionDisk.Sound) RetentionFailed
      (RetentionSite.Meets root) s := by
  refine Process.wp_bind.mpr (wp_retentionCall ⟨sound, trivial⟩ ?_)
  refine Process.wp_bind.mpr (wp_retentionAsk ⟨sound, trivial⟩ fun _ found read => ?_)
  cases read
  refine Process.wp_bind.mpr (wp_activeRelease sound fun current link => ?_)
  refine Process.wp_bind.mpr (Process.wp_ofExcept.mpr ⟨fun ledger passed => ?_, fun _ _ => sound⟩)
  obtain ⟨same, valid⟩ := validLedger_getD passed
  have early : (now : Nat) ≤ maxSafeInteger := Nat.le_of_lt_succ now.isLt
  have entered : (firstVerified current now ledger).Valid ∧
      (firstVerified current now ledger).previous = ledger.previous ∧
      (firstVerified current now ledger).deleting = ledger.deleting ∧
      ((firstVerified current now ledger).successful = ledger.successful ∨ ∃ id time,
        s.current.current = some (root ++ [id]) ∧
        (firstVerified current now ledger).successful = enterVerified id time ledger.successful) := by
    rcases firstVerified_eq current now ledger with unchanged | ⟨id, here, changed⟩
    · rw [unchanged]
      exact ⟨valid, rfl, rfl, .inl rfl⟩
    · rw [changed]
      exact ⟨enterVerified_valid valid (link id here).2 early, rfl, rfl, .inr ⟨id, now, (link id here).1, rfl⟩⟩
  generalize firstVerified current now ledger = first at entered
  obtain ⟨firstValid, previous, deleting, successful⟩ := entered
  have remembered : (rememberPrevious current first).Valid ∧
      (rememberPrevious current first).deleting = ledger.deleting ∧
      (rememberPrevious current first).successful = first.successful ∧
      ((rememberPrevious current first).previous = ledger.previous ∨ ∃ id,
        s.current.current = some (root ++ [id]) ∧ (rememberPrevious current first).previous = some id ∧
        id ∈ first.successful.map VerifiedRelease.id) := by
    rcases rememberPrevious_eq current first with unchanged | ⟨id, here, known, changed⟩
    · rw [unchanged]
      exact ⟨firstValid, deleting, rfl, .inl previous⟩
    · rw [changed]
      refine ⟨⟨firstValid.count, firstValid.distinct, firstValid.verified, ?_, firstValid.bounded,
        firstValid.once, firstValid.deleting⟩, deleting, rfl, .inr ⟨id, (link id here).1, rfl, known⟩⟩
      rintro other named
      cases named
      exact (link id here).2
  generalize rememberPrevious current first = last at remembered
  obtain ⟨lastValid, kept, stays, before⟩ := remembered
  have change : LedgerChange root s.current last := by
    refine ⟨?_, ?_, ?_⟩
    · rw [stays, ← same]
      exact successful
    · rw [stays, ← same]
      exact before
    · rw [kept, ← same]
      exact fun entry member => .inl member
  have written := sound.1.write lastValid fun old known entry member => .inl (by
    rw [kept, same, known]
    exact member)
  have saved : (saveLedger last).wp allowed (fun _ t => t.Always RetentionDisk.Sound) RetentionFailed
      (RetentionSite.Meets root) s := wp_saveLedger sound change written ⟨written, by simp⟩
  refine Process.wp_bind.mpr ?_
  unfold identifyFirst
  split
  · split
    · exact wp_releaseIdentity sound saved
    · exact saved
  · exact saved

/-- The entries that are about to be recorded. -/
structure Selected (keep : List String) (disk : RetentionDisk) (remove : List DeletingRelease) : Prop where
  valid : ∀ entry ∈ remove, validReleaseId entry.id = true ∧ entry.validTrash = true
  once : (remove.map DeletingRelease.id).Nodup
  bounded : remove.length ≤ 100
  spared : ∀ entry ∈ remove, entry.id ∉ keep
  removable : ∀ entry ∈ remove, ∀ directory, disk.releases entry.id = some directory → directory.Removable

theorem Selected.snoc {keep : List String} {disk : RetentionDisk} {remove : List DeletingRelease}
    (selected : Selected keep disk remove) {name : String} (valid : validReleaseId name = true)
    (unkept : name ∉ keep) (fresh : name ∉ remove.map DeletingRelease.id) (room : remove.length < 100)
    (removable : ∀ directory, disk.releases name = some directory → directory.Removable)
    (token : TrashToken) : Selected keep disk (remove ++ [⟨name, trashName name token⟩]) := by
  refine ⟨fun entry member => ?_, ?_, ?_, fun entry member => ?_, fun entry member => ?_⟩
  · rcases List.mem_append.mp member with member | member
    · exact selected.valid entry member
    · obtain rfl := List.mem_singleton.mp member
      exact ⟨valid, validTrash_trashName name token⟩
  · rw [List.map_append, List.map_singleton]
    exact List.nodup_append.mpr ⟨selected.once, by simp, fun id member other listed same => by
      obtain rfl := List.mem_singleton.mp listed
      exact fresh (same ▸ member)⟩
  · rw [List.length_append, List.length_singleton]
    omega
  · rcases List.mem_append.mp member with member | member
    · exact selected.spared entry member
    · obtain rfl := List.mem_singleton.mp member
      exact unkept
  · rcases List.mem_append.mp member with member | member
    · exact selected.removable entry member
    · obtain rfl := List.mem_singleton.mp member
      exact removable

theorem wp_checkRecorded {Q : Unit → Journaled RetentionDisk → Prop} {options : CollectOptions}
    {keep : List String} {entry : DeletingRelease} (sound : s.Always RetentionDisk.Sound)
    (checks : entry.id ∉ keep →
      (∀ directory, s.current.releases entry.id = some directory → directory.Removable) → Q () s) :
    (checkRecorded root options keep entry).wp allowed Q RetentionFailed (RetentionSite.Meets root) s := by
  refine Process.wp_bind.mpr (Process.wp_require.mpr ⟨fun spared => ?_, fun _ => sound⟩)
  refine Process.wp_bind.mpr (wp_lookRelease sound ?_)
  refine Process.wp_bind.mpr (wp_lookRelease sound ?_)
  refine Process.wp_bind.mpr (Process.wp_require.mpr ⟨fun _ => ?_, fun _ => sound⟩)
  have last : (∀ directory, s.current.releases entry.id = some directory → directory.Removable) →
      (if (s.current.releases entry.trash).isSome then inspectTree root options.mountPaths entry.trash
        else pure ()).wp allowed Q RetentionFailed (RetentionSite.Meets root) s := fun removable =>
    Process.wp_ite.mpr ⟨fun _ => wp_inspectTree sound fun _ => checks spared removable,
      fun _ => checks spared removable⟩
  refine Process.wp_bind.mpr (Process.wp_ite.mpr ⟨fun _ => ?_, fun absent => last ?_⟩)
  · exact Process.wp_bind.mpr (wp_releaseIdentity sound (wp_inspectTree sound last))
  · intro directory found
    simp [found] at absent

theorem wp_selectRelease {options : CollectOptions} {keep : List String} {remove : List DeletingRelease}
    {name : String} {Q : List DeletingRelease → Journaled RetentionDisk → Prop}
    (sound : s.Always RetentionDisk.Sound) (selected : Selected keep s.current remove)
    (selects : ∀ more, Selected keep s.current more → remove ⊆ more → Q more s) :
    (selectRelease root options keep remove name).wp allowed Q RetentionFailed (RetentionSite.Meets root)
      s := by
  refine Process.wp_bind.mpr (Process.wp_require.mpr ⟨fun valid => ?_, fun _ => sound⟩)
  refine Process.wp_bind.mpr (wp_retentionAsk ⟨sound, trivial⟩ fun _ _ _ => ?_)
  refine Process.wp_ite.mpr ⟨fun chosen => ?_, fun _ => selects remove selected (List.Subset.refl _)⟩
  refine Process.wp_bind.mpr (wp_releaseIdentity sound ?_)
  refine Process.wp_bind.mpr (wp_inspectTree sound fun removable => ?_)
  refine Process.wp_bind.mpr (wp_retentionAsk ⟨sound, trivial⟩ fun _ token _ => ?_)
  exact selects _ (selected.snoc valid chosen.1 chosen.2.1 chosen.2.2 removable token)
    (List.subset_append_left _ _)

theorem wp_selectReleases {options : CollectOptions} {keep owned : List String}
    {remove : List DeletingRelease} {names : List String}
    {Q : List DeletingRelease → Journaled RetentionDisk → Prop}
    (sound : s.Always RetentionDisk.Sound) (selected : Selected keep s.current remove)
    (selects : ∀ more, Selected keep s.current more → remove ⊆ more → Q more s) :
    (selectReleases root options keep owned remove names).wp allowed Q RetentionFailed
      (RetentionSite.Meets root) s := by
  induction names generalizing remove with
  | nil => exact selects remove selected (List.Subset.refl _)
  | cons name rest ih =>
    refine Process.wp_ite.mpr ⟨fun _ => ih selected selects, fun _ => Process.wp_ite.mpr ⟨fun _ => ?_,
      fun _ => ?_⟩⟩
    · exact Process.wp_bind.mpr (Process.wp_require.mpr ⟨fun _ => ih selected selects, fun _ => sound⟩)
    · exact Process.wp_bind.mpr (wp_selectRelease sound selected fun more also larger =>
        ih also fun last final grows => selects last final (List.Subset.trans larger grows))

/-- What the call, the current link or the ledger keeps while the call deletes. -/
def ReleaseLedger.Keeps (options : CollectOptions) (name : String) (ledger : ReleaseLedger) : Prop :=
  name = options.releaseId ∨ name ∈ options.protectedIds ∨ ledger.previous = some name ∨
    name ∈ ledger.successful.map VerifiedRelease.id

/-- The state of the deletion loop. -/
structure Deleting (root : List String) (options : CollectOptions) (ledger : ReleaseLedger)
    (s : Journaled RetentionDisk) : Prop where
  sound : s.Always RetentionDisk.Sound
  written : s.Always fun disk => disk.ledger = some ledger
  current : s.current.current = some (root ++ [options.releaseId])
  named : ∀ name, ledger.Keeps options name → validReleaseId name = true
  spared : ∀ entry ∈ ledger.deleting, ¬ ledger.Keeps options entry.id
  removable : ∀ entry ∈ ledger.deleting, ∀ directory,
    s.current.releases entry.id = some directory → directory.Removable

theorem moveRelease_eq {disk moved : RetentionDisk} {entry : DeletingRelease}
    (step : disk.moveRelease entry = some moved) : ∃ directory, disk.releases entry.id = some directory ∧
      moved = (disk.place entry.id none).place entry.trash (some directory) := by
  unfold RetentionDisk.moveRelease at step
  split at step
  · cases step
  · next directory found _ =>
    cases step
    exact ⟨directory, found, rfl⟩
  · next directory other found _ =>
    split at step
    · cases step
      exact ⟨directory, found, rfl⟩
    · cases step

namespace Deleting

variable {options : CollectOptions} {ledger : ReleaseLedger} {entry : DeletingRelease}

theorem valid (deleting : Deleting root options ledger s) : ledger.Valid :=
  deleting.sound.1.ledger ledger deleting.written.1

theorem spares (deleting : Deleting root options ledger s) {name : String}
    (free : ¬ ledger.Keeps options name) : s.current.Spares root options name := by
  refine ⟨fun here => free (.inl ?_), fun named => free (.inr (.inl named)), fun value found before => ?_,
    fun value found listed => ?_⟩
  · have same := deleting.current.symm.trans here
    simpa using same.symm
  · cases deleting.written.1.symm.trans found
    exact free (.inr (.inr (.inl before)))
  · cases deleting.written.1.symm.trans found
    exact free (.inr (.inr (.inr listed)))

theorem free (deleting : Deleting root options ledger s) (member : entry ∈ ledger.deleting) :
    entry.Free root options s := by
  have recorded := deleting.valid.deleting entry member
  have kept : ¬ ledger.Keeps options entry.trash := fun kept => by
    have outside := not_inTrash (deleting.named _ kept)
    rw [inTrash_trash recorded.2] at outside
    cases outside
  refine ⟨⟨⟨ledger, deleting.written.1, member⟩, fun disk earlier => ?_⟩,
    deleting.spares (deleting.spared entry member), deleting.spares kept⟩
  exact ⟨ledger, deleting.written.2 disk earlier, member⟩

theorem sync (deleting : Deleting root options ledger s) : Deleting root options ledger s.sync :=
  ⟨deleting.sound.sync, deleting.written.sync, deleting.current, deleting.named, deleting.spared,
    deleting.removable⟩

theorem place (deleting : Deleting root options ledger s) (name : String)
    (directory : Option ReleaseDirectory)
    (fits : ∀ placed, directory = some placed → placed.Removable ∧
      ∃ entry ∈ ledger.deleting, entry.trash = name) :
    Deleting root options ledger (s.update (RetentionDisk.place name directory)) := by
  have sound : (s.current.place name directory).Sound :=
    deleting.sound.1.place fun placed same _ => ⟨(fits placed same).1, ledger, deleting.written.1,
      (fits placed same).2⟩
  refine ⟨deleting.sound.update sound, deleting.written.update deleting.written.1, deleting.current,
    deleting.named, deleting.spared, fun entry member placed found => ?_⟩
  change (if entry.id = name then directory else s.current.releases entry.id) = some placed at found
  split at found
  · exact (fits placed found).1
  · exact deleting.removable entry member placed found

/-- The rename of a recorded directory to the trash. -/
theorem move (deleting : Deleting root options ledger s) (member : entry ∈ ledger.deleting)
    {disk : RetentionDisk} (moved : s.current.moveRelease entry = some disk) :
    Deleting root options ledger (s.update fun _ => disk) ∧ disk.releases entry.id = none := by
  have recorded := deleting.valid.deleting entry member
  have apart : entry.id ≠ entry.trash := fun same => by
    have outside := not_inTrash recorded.1
    rw [same, inTrash_trash recorded.2] at outside
    cases outside
  obtain ⟨directory, found, rfl⟩ := moveRelease_eq moved
  have removable := deleting.removable entry member directory found
  have emptied := deleting.place entry.id none fun placed never => by cases never
  have filled := emptied.place entry.trash (some directory) fun placed same => by
    cases same
    exact ⟨removable, entry, member, rfl⟩
  refine ⟨⟨⟨filled.sound.1, deleting.sound.update filled.sound.1 |>.2⟩,
    ⟨deleting.written.1, deleting.written.update (f := fun _ => s.current) deleting.written.1 |>.2⟩,
    filled.current, filled.named, filled.spared, filled.removable⟩, ?_⟩
  simp [RetentionDisk.place, apart]

end Deleting

section Loop

variable {options : CollectOptions} {ledger : ReleaseLedger} {entry : DeletingRelease}

theorem wp_removeTrash {Q : Unit → Journaled RetentionDisk → Prop} (deleting : Deleting root options ledger s)
    (member : entry ∈ ledger.deleting) (absent : s.current.releases entry.id = none)
    (removed : ∀ t, Deleting root options ledger t → t.current.releases entry.id = none →
      t.current.releases entry.trash = none → Q () t) :
    (removeTrash options entry).wp allowed Q RetentionFailed (RetentionSite.Meets root) s := by
  have apart : entry.id ≠ entry.trash := fun same => by
    have recorded := deleting.valid.deleting entry member
    have outside := not_inTrash recorded.1
    rw [same, inTrash_trash recorded.2] at outside
    cases outside
  refine Process.wp_bind.mpr (wp_retentionAct ⟨deleting.sound, deleting.free member⟩ fun answer t moved => ?_)
  cases moved
  have less := deleting.place entry.trash
    ((s.current.releases entry.trash).map (ReleaseDirectory.leave answer.left))
    fun placed same => by
      obtain ⟨directory, found, rfl⟩ := Option.map_eq_some_iff.mp same
      have known := deleting.sound.1.trash entry.trash directory found
        (inTrash_trash (deleting.valid.deleting entry member).2)
      exact ⟨known.1.leave answer.left, entry, member, rfl⟩
  have gone := less.place entry.trash none fun placed never => by cases never
  refine ⟨wp_retentionModify ⟨less.sound, less.free member⟩ gone.sound.1 (removed _ gone ?_ ?_), less.sound⟩
  · simp [RetentionDisk.place, apart, absent]
  · simp [RetentionDisk.place]

theorem wp_deleteRelease {Q : Unit → Journaled RetentionDisk → Prop} (deleting : Deleting root options ledger s)
    (member : entry ∈ ledger.deleting)
    (removed : ∀ t, Deleting root options ledger t → t.current.releases entry.id = none →
      t.current.releases entry.trash = none → Q () t) :
    (deleteRelease options entry).wp allowed Q RetentionFailed (RetentionSite.Meets root) s := by
  have rest : ∀ t, Deleting root options ledger t → t.current.releases entry.id = none →
      (do
        retentionCall (.checkpoint "trashed")
        removeTrash options entry
        Process.modify .syncReleases Journaled.sync
        retentionCall (.checkpoint "deleted") : RetentionProcess Unit).wp allowed Q RetentionFailed
          (RetentionSite.Meets root) t := by
    intro t trashed absent
    refine Process.wp_bind.mpr (wp_retentionCall ⟨trashed.sound, trivial⟩ ?_)
    refine Process.wp_bind.mpr (wp_removeTrash trashed member absent fun u gone original trash => ?_)
    refine Process.wp_bind.mpr (wp_retentionSync ⟨gone.sound, trivial⟩ ?_)
    exact wp_retentionCall ⟨gone.sync.sound, trivial⟩ (removed _ gone.sync original trash)
  refine Process.wp_bind.mpr (wp_lookRelease deleting.sound ?_)
  refine Process.wp_bind.mpr (Process.wp_ite.mpr ⟨fun _ => ?_, fun absent => rest s deleting (by simpa using absent)⟩)
  refine Process.wp_bind.mpr (wp_retentionAct ⟨deleting.sound, deleting.free member⟩ fun _ t step => ?_)
  split at step
  · cases step
  · next moved found =>
    cases step
    obtain ⟨trashed, absent⟩ := deleting.move member found
    exact ⟨wp_retentionSync ⟨trashed.sound, trivial⟩ (rest _ trashed.sync absent), trashed.sound⟩

/-- The entry leaves the journal when its directory is gone. -/
theorem Deleting.forgets {rest : List DeletingRelease} (deleting : Deleting root options ledger s)
    (journal : ledger.deleting = entry :: rest) (original : s.current.releases entry.id = none)
    (trash : s.current.releases entry.trash = none) :
    LedgerChange root s.current (ledger.forget entry.id) ∧
      Deleting root options (ledger.forget entry.id)
        ⟨{ s.current with ledger := some (ledger.forget entry.id), next := false }, []⟩ := by
  have remaining := ReleaseLedger.forget_head deleting.valid journal
  have leaves : ∀ other ∈ ledger.deleting, other ∈ (ledger.forget entry.id).deleting ∨ other = entry := by
    intro other member
    rw [journal] at member
    rw [remaining]
    exact (List.mem_cons.mp member).symm
  have inner : ∀ other ∈ (ledger.forget entry.id).deleting, other ∈ ledger.deleting :=
    fun other member => List.mem_of_mem_filter member
  refine ⟨⟨?_, ?_, ?_⟩, ⟨⟨?_, by simp⟩, ⟨rfl, by simp⟩, deleting.current, deleting.named, ?_, ?_⟩⟩
  · rw [deleting.written.1]
    exact .inl rfl
  · rw [deleting.written.1]
    exact .inl rfl
  · rw [deleting.written.1]
    intro other member
    rcases leaves other member with kept | rfl
    · exact .inl kept
    · exact .inr ⟨original, trash⟩
  · refine deleting.sound.1.write (deleting.valid.forget entry.id) fun old known other member => ?_
    cases deleting.written.1.symm.trans known
    rcases leaves other member with kept | rfl
    · exact .inl kept
    · exact .inr trash
  · exact fun other member => deleting.spared other (inner other member)
  · exact fun other member => deleting.removable other (inner other member)

theorem wp_deleteReleases {remaining : List DeletingRelease} (deleting : Deleting root options ledger s)
    (journal : ledger.deleting = remaining) :
    (deleteReleases options ledger remaining).wp allowed (fun _ t => t.Always RetentionDisk.Sound)
      RetentionFailed (RetentionSite.Meets root) s := by
  induction remaining generalizing ledger s with
  | nil => exact deleting.sound
  | cons entry rest ih =>
    have member : entry ∈ ledger.deleting := journal ▸ List.mem_cons_self
    refine Process.wp_bind.mpr (wp_deleteRelease deleting member fun t later original trash => ?_)
    obtain ⟨change, after⟩ := later.forgets journal original trash
    refine Process.wp_bind.mpr (wp_saveLedger later.sound change after.sound.1 ?_)
    exact ih after (ReleaseLedger.forget_head later.valid journal)

theorem recordVerified_eq (options : CollectOptions) (successful : List VerifiedRelease) :
    recordVerified options successful = successful ∨
      recordVerified options successful = enterVerified options.releaseId options.now successful := by
  unfold recordVerified
  split
  · exact .inr rfl
  · exact .inl rfl

theorem mem_keptReleases {ledger : ReleaseLedger} {name : String} :
    name ∈ keptReleases options ledger ↔
      ReleaseLedger.Keeps options name
        { ledger with successful := recordVerified options ledger.successful } := by
  unfold keptReleases ReleaseLedger.Keeps
  simp only [List.mem_eraseDups, List.cons_append, List.mem_cons, List.mem_append, Option.mem_toList]
  tauto

/-- The ledger is valid after the active release was entered. -/
theorem recordVerified_valid (valid : ledger.Valid) (known : validReleaseId options.releaseId = true) :
    ({ ledger with successful := recordVerified options ledger.successful } : ReleaseLedger).Valid := by
  have early : (options.now : Nat) ≤ maxSafeInteger := Nat.le_of_lt_succ options.now.isLt
  rcases recordVerified_eq options ledger.successful with same | same
  · rw [same]
    exact valid
  · rw [same]
    exact enterVerified_valid valid known early

theorem recordDeletion_valid {keep : List String} {disk : RetentionDisk} {remove : List DeletingRelease}
    (valid : ledger.Valid) (known : validReleaseId options.releaseId = true)
    (selected : Selected keep disk remove) : ({ ledger with
      successful := recordVerified options ledger.successful, deleting := remove } : ReleaseLedger).Valid :=
  have entered := recordVerified_valid valid known
  ⟨entered.count, entered.distinct, entered.verified, entered.previous, selected.bounded, selected.once,
    selected.valid⟩

theorem ReleaseLedger.Keeps.valid {name : String} (kept : ledger.Keeps options name) (valid : ledger.Valid)
    (known : validReleaseId options.releaseId = true)
    (named : ∀ id ∈ options.protectedIds, validReleaseId id = true) : validReleaseId name = true := by
  rcases kept with rfl | kept | kept | kept
  · exact known
  · exact named name kept
  · exact valid.previous name kept
  · obtain ⟨entry, listed, rfl⟩ := List.mem_map.mp kept
    exact (valid.verified entry listed).1

/-- The ledger that `collectReleases` writes before it deletes anything. -/
theorem wp_recordDeletion {remove : List DeletingRelease} {Q : Unit → Journaled RetentionDisk → Prop}
    (sound : s.Always RetentionDisk.Sound) (found : s.current.ledger = some ledger)
    (active : s.current.current = some (root ++ [options.releaseId]))
    (known : validReleaseId options.releaseId = true)
    (named : ∀ id ∈ options.protectedIds, validReleaseId id = true)
    (selected : Selected (keptReleases options ledger) s.current remove) (grows : ledger.deleting ⊆ remove)
    (recorded : ∀ next t, next = { ledger with
      successful := recordVerified options ledger.successful, deleting := remove } →
      Deleting root options next t → Q () t) :
    (saveLedger { ledger with
      successful := recordVerified options ledger.successful, deleting := remove }).wp allowed Q
      RetentionFailed (RetentionSite.Meets root) s := by
  have valid := sound.1.ledger ledger found
  have accepted := recordDeletion_valid valid known selected
  have written := sound.1.write accepted fun old same entry member => by
    cases found.symm.trans same
    exact .inl (grows member)
  refine wp_saveLedger sound ⟨?_, ?_, ?_⟩ written (recorded _ _ rfl
    ⟨⟨written, by simp⟩, ⟨rfl, by simp⟩, active, fun name kept => ?_, fun entry member kept => ?_,
      selected.removable⟩)
  · rw [found]
    exact (recordVerified_eq options ledger.successful).imp_right fun same =>
      ⟨options.releaseId, options.now, active, same⟩
  · rw [found]
    exact .inl rfl
  · rw [found]
    exact fun entry member => .inl (grows member)
  · exact ReleaseLedger.Keeps.valid kept accepted known named
  · exact selected.spared entry member (mem_keptReleases.mpr kept)

/-- `collectReleases` once the ledger is read and the active release checked. -/
theorem wp_collectChecked (sound : s.Always RetentionDisk.Sound) (found : s.current.ledger = some ledger)
    (active : s.current.current = some (root ++ [options.releaseId]))
    (known : validReleaseId options.releaseId = true)
    (named : ∀ id ∈ options.protectedIds, validReleaseId id = true) :
    (collectChecked root options ledger).wp allowed (fun _ t => t.Always RetentionDisk.Sound) RetentionFailed
      (RetentionSite.Meets root) s := by
  have valid := sound.1.ledger ledger found
  refine Process.wp_bind.mpr ((Process.wp_each (P := fun t => t = s) ?_ rfl).mono ?_ (fun _ _ held => held)
    fun _ _ held => held)
  · rintro id _ t rfl
    refine Process.wp_bind.mpr (wp_lookRelease sound (Process.wp_ite.mpr ⟨fun _ => ?_, fun _ => rfl⟩))
    exact wp_releaseIdentity sound rfl
  rintro _ t rfl
  refine Process.wp_bind.mpr ((Process.wp_each_done (P := fun u => u = t)
    (D := fun entry _ => entry.id ∉ keptReleases options ledger ∧
      ∀ directory, t.current.releases entry.id = some directory → directory.Removable) ?_ rfl).mono ?_
    (fun _ _ held => held) fun _ _ held => held)
  · rintro entry _ u rfl
    exact wp_checkRecorded sound fun spared removable => ⟨rfl, ⟨spared, removable⟩, fun _ held => held⟩
  rintro _ u ⟨rfl, checked, _⟩
  have start : Selected (keptReleases options ledger) u.current ledger.deleting :=
    ⟨valid.deleting, valid.once, valid.bounded, fun entry member => (checked entry member).1,
      fun entry member => (checked entry member).2⟩
  refine Process.wp_bind.mpr (wp_retentionAsk ⟨sound, trivial⟩ fun _ names _ => ?_)
  refine Process.wp_bind.mpr (wp_selectReleases sound start fun remove selected grows => ?_)
  refine Process.wp_bind.mpr (wp_recordDeletion sound found active known named selected grows
    fun next t same deleting => ?_)
  refine Process.wp_bind.mpr (wp_retentionCall ⟨deleting.sound, trivial⟩ ?_)
  rw [← same]
  exact Process.wp_bind.mpr (wp_deleteReleases deleting (by rw [same]))

theorem wp_collectReleases (sound : s.Always RetentionDisk.Sound) :
    (collectReleases root options).wp allowed (fun _ t => t.Always RetentionDisk.Sound) RetentionFailed
      (RetentionSite.Meets root) s := by
  refine Process.wp_bind.mpr (wp_retentionCall ⟨sound, trivial⟩ ?_)
  refine Process.wp_bind.mpr (wp_retentionAsk ⟨sound, trivial⟩ fun _ ledger read => ?_)
  refine Process.wp_bind.mpr (wp_activeRelease sound fun current link => ?_)
  refine Process.wp_bind.mpr (Process.wp_require.mpr ⟨fun known => ?_, fun _ => sound⟩)
  refine Process.wp_bind.mpr (Process.wp_require.mpr ⟨fun active => ?_, fun _ => sound⟩)
  refine Process.wp_bind.mpr (wp_releaseIdentity sound ?_)
  refine Process.wp_bind.mpr (Process.wp_require.mpr ⟨fun named => ?_, fun _ => sound⟩)
  split at read
  · cases read
  · next value found =>
    obtain ⟨rfl, _⟩ := validateLedger_ok.mp read
    exact wp_collectChecked sound found (link options.releaseId active).1 known named

end Loop

end Operations

end LatexRenderer
