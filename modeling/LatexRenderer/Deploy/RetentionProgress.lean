import LatexRenderer.Deploy.ReleaseRetention

/-! # A later collection finishes what is recorded

When no step fails, `collectReleases` finishes the deletions that an earlier call has recorded, wherever
that call was stopped: before a rename, after it or in the middle of a removal. What stands against it are
the checks of the code: a recorded release that is kept by now, or that was published again beside its
trash, and directories that are not as releases are.
-/

namespace LatexRenderer

open Machine

/-- The files let a call with these options through. `unkept` and `apart` are about what is recorded:
nothing keeps it, and it was not published again beside its trash. `formed`, `removable` and `unmounted`
are about the directories: releases with their own metadata, which can be removed where they are not kept,
with links that stay inside and nothing mounted below. -/
structure CollectOptions.Ready (root : List String) (options : CollectOptions) (ledger : ReleaseLedger)
    (disk : RetentionDisk) : Prop where
  active : disk.current = some (root ++ [options.releaseId])
  there : (disk.releases options.releaseId).isSome = true
  known : validReleaseId options.releaseId = true
  named : ∀ id ∈ options.protectedIds, validReleaseId id = true
  unkept : ∀ entry ∈ ledger.deleting, entry.id ∉ keptReleases options ledger
  apart : ∀ entry ∈ ledger.deleting,
    disk.releases entry.id = none ∨ disk.releases entry.trash = none
  formed : ∀ name directory, disk.releases name = some directory → isStage name = false →
    inTrash name = false →
    validReleaseId name = true ∧ directory.sealed = true ∧ directory.identity = some name
  removable : ∀ name directory, disk.releases name = some directory → isStage name = false →
    inTrash name = false → name ∉ keptReleases options ledger → directory.Removable
  contained : ∀ name directory, disk.releases name = some directory → isStage name = false →
    name ∉ keptReleases options ledger → directory.Contained
  unmounted : ∀ name, isStage name = false → name ∉ keptReleases options ledger →
    ∀ mount ∈ options.mountPaths, ¬ root ++ [name] <+: mount

section Checks

variable {root : List String} {options : CollectOptions} {ledger : ReleaseLedger}
  {s : Journaled RetentionDisk}

theorem retentionCall_completes {site : RetentionSite} {Q : Unit → Journaled RetentionDisk → Prop}
    (held : Q () s) : (retentionCall site).Completes Q s :=
  .ask fun _ => ⟨(), rfl, held⟩

theorem lookRelease_completes {name : String} {Q : Bool → Journaled RetentionDisk → Prop}
    (held : Q (s.current.releases name).isSome s) : (lookRelease name).Completes Q s :=
  .ask fun _ => ⟨_, rfl, held⟩

/-- A release that is there is sealed and has its own metadata. -/
theorem CollectOptions.Ready.present (ready : options.Ready root ledger s.current) {name : String}
    {directory : ReleaseDirectory} (found : s.current.releases name = some directory)
    (valid : validReleaseId name = true) :
    sealedRelease name s.current = .ok directory ∧ directory.identity = some name := by
  obtain ⟨_, sealed, identity⟩ := ready.formed name directory found (not_isStage valid) (not_inTrash valid)
  refine ⟨?_, identity⟩
  simp [sealedRelease, found, sealed]

theorem releaseIdentity_completes (ready : options.Ready root ledger s.current) {name : String}
    (there : (s.current.releases name).isSome = true) (valid : validReleaseId name = true) :
    (releaseIdentity name).Completes (fun _ t => t = s) s := by
  obtain ⟨directory, found⟩ := Option.isSome_iff_exists.mp there
  obtain ⟨sealed, identity⟩ := ready.present found valid
  refine .bind (.require valid (.ask fun _ => ⟨(), ?_, rfl⟩))
  simp [sealed, identity, bind, Except.bind]

theorem not_isStage_of_inTrash {name : String} (trashed : inTrash name = true) : isStage name = false := by
  refine Bool.eq_false_iff.mpr fun staged => ?_
  obtain ⟨rest, trash⟩ := List.isPrefixOf_iff_prefix.mp trashed
  obtain ⟨other, stage⟩ := List.isPrefixOf_iff_prefix.mp staged
  have same := trash.trans stage.symm
  simp [trashMark, pendingMark] at same

theorem inspectTree_completes (ready : options.Ready root ledger s.current) {name : String} (unstaged : isStage name = false)
    (unkept : name ∉ keptReleases options ledger) {directory : ReleaseDirectory}
    (found : s.current.releases name = some directory) (removable : directory.Removable) :
    (inspectTree root options.mountPaths name).Completes (fun _ t => t = s) s := by
  refine .ask fun _ => ⟨(), ?_, rfl⟩
  simp only [found]
  exact removable.deletionTree (ready.contained name directory found unstaged unkept)
    (ready.unmounted name unstaged unkept)

theorem checkRecorded_completes (sound : s.current.Sound) (found : s.current.ledger = some ledger)
    (ready : options.Ready root ledger s.current) {entry : DeletingRelease}
    (member : entry ∈ ledger.deleting) :
    (checkRecorded root options (keptReleases options ledger) entry).Completes (fun _ t => t = s) s := by
  have valid := sound.ledger ledger found
  obtain ⟨known, fits⟩ := valid.deleting entry member
  have last : (if (s.current.releases entry.trash).isSome then
      inspectTree root options.mountPaths entry.trash else pure ()).Completes (fun _ t => t = s) s := by
    split
    · next there =>
      obtain ⟨directory, present⟩ := Option.isSome_iff_exists.mp there
      have unkept : entry.trash ∉ keptReleases options ledger := fun kept => by
        have outside := not_inTrash ((mem_keptReleases.mp kept).valid
          (recordVerified_valid valid ready.known) ready.known ready.named)
        rw [inTrash_trash fits] at outside
        cases outside
      exact inspectTree_completes ready (not_isStage_of_inTrash (inTrash_trash fits)) unkept present
        (sound.trash entry.trash directory present (inTrash_trash fits)).1
    · rfl
  refine .bind (.require (ready.unkept entry member) ?_)
  refine .bind (lookRelease_completes (.bind (lookRelease_completes ?_)))
  refine .bind (.require ?_ ?_)
  · rintro ⟨original, trash⟩
    rcases ready.apart entry member with absent | absent
    · simp [absent] at original
    · simp [absent] at trash
  · refine .bind ?_
    split
    · next there =>
      obtain ⟨directory, present⟩ := Option.isSome_iff_exists.mp there
      refine .bind ((releaseIdentity_completes ready there known).mono ?_)
      rintro _ t rfl
      refine (inspectTree_completes ready (not_isStage known) (ready.unkept entry member) present
        (ready.removable entry.id directory present (not_isStage known) (not_inTrash known)
          (ready.unkept entry member))).mono ?_
      rintro _ t rfl
      exact last
    · exact last

/-- The temporary file of an earlier process is not in the way of a new ledger. -/
theorem saveLedger_completes {value : ReleaseLedger} {Q : Unit → Journaled RetentionDisk → Prop}
    (saved : Q () ⟨{ s.current with ledger := some value, next := false }, []⟩) :
    (saveLedger value).Completes Q s := by
  have written : ∀ t : Journaled RetentionDisk, t.current = { s.current with next := false } →
      (writeLedger value).Completes Q t := by
    intro t same
    refine .bind (.act fun _ => ⟨(), _, if_neg (by simp [same]), ?_⟩)
    refine .bind (.modify (.modify ?_))
    simpa [Journaled.sync, Journaled.update, same] using saved
  refine .bind (.ask fun _ => ⟨_, rfl, ?_⟩)
  refine .bind ?_
  cases stale : s.current.next with
  | true => exact .modify (written _ rfl)
  | false => exact written s (by rw [← stale])

/-- How far a turn of the deletion loop has got: nothing appears, and the ledger is as it was. -/
structure Clears (s t : RetentionDisk) : Prop where
  ledger : t.ledger = s.ledger
  absent : ∀ name, s.releases name = none → t.releases name = none

theorem Clears.trans {s t u : RetentionDisk} (first : Clears s t) (second : Clears t u) : Clears s u :=
  ⟨second.ledger.trans first.ledger, fun name absent => second.absent name (first.absent name absent)⟩

theorem clears_place {disk : RetentionDisk} (name : String) (directory : Option ReleaseDirectory)
    (less : disk.releases name = none → directory = none) : Clears disk (disk.place name directory) := by
  refine ⟨rfl, fun other absent => ?_⟩
  show (if other = name then directory else disk.releases other) = none
  split
  · next same =>
    subst same
    exact less absent
  · exact absent

/-- The end of a turn of the deletion loop, when the directory is in the trash. -/
theorem emptyTrash_completes (options : CollectOptions) {entry : DeletingRelease} (absent : s.current.releases entry.id = none) :
    (do
      retentionCall (.checkpoint "trashed")
      removeTrash options entry
      Process.modify .syncReleases Journaled.sync
      retentionCall (.checkpoint "deleted") : RetentionProcess Unit).Completes
      (fun _ t => Clears s.current t.current ∧ t.current.releases entry.id = none ∧
        t.current.releases entry.trash = none) s := by
  refine .bind (retentionCall_completes (.bind (.bind (.act fun answer => ⟨(), _, rfl, .modify ?_⟩))))
  refine .bind (.modify (retentionCall_completes ?_))
  have less : Clears s.current (s.current.place entry.trash
      ((s.current.releases entry.trash).map (ReleaseDirectory.leave answer.left))) :=
    clears_place _ _ fun gone => by rw [gone]; rfl
  have cleared := less.trans (clears_place entry.trash none fun _ => rfl)
  exact ⟨cleared, cleared.absent entry.id absent, by simp [RetentionDisk.place]⟩

theorem deleteRelease_completes {entry : DeletingRelease} (apart : entry.id ≠ entry.trash)
    (once : s.current.releases entry.id = none ∨ s.current.releases entry.trash = none) :
    (deleteRelease options entry).Completes (fun _ t => t.current.ledger = s.current.ledger ∧
      t.current.releases entry.id = none ∧ t.current.releases entry.trash = none ∧
      ∀ name, s.current.releases name = none → t.current.releases name = none) s := by
  refine .bind (lookRelease_completes (.bind ?_))
  cases found : s.current.releases entry.id with
  | none =>
    refine (emptyTrash_completes options found).mono ?_
    rintro _ t ⟨clears, original, trash⟩
    exact ⟨clears.ledger, original, trash, clears.absent⟩
  | some directory =>
    have free := once.resolve_left (by simp [found])
    have moved : s.current.moveRelease entry =
        some ((s.current.place entry.id none).place entry.trash (some directory)) := by
      simp [RetentionDisk.moveRelease, found, free]
    refine .bind (.act fun _ => ⟨(), _, by rw [moved], .modify ?_⟩)
    have original : ((s.current.place entry.id none).place entry.trash (some directory)).releases entry.id =
        none := by simp [RetentionDisk.place, apart]
    refine (emptyTrash_completes options original).mono ?_
    rintro _ t ⟨clears, original, trash⟩
    refine ⟨clears.ledger, original, trash, fun name absent => ?_⟩
    by_cases same : name = entry.trash
    · exact same ▸ trash
    · refine clears.absent name ?_
      show (if name = entry.trash then some directory
        else if name = entry.id then none else s.current.releases name) = none
      rw [if_neg same, absent, ite_self]

/-- The deletion loop ends with an empty journal and every directory gone. -/
theorem deleteReleases_completes (options : CollectOptions) {remaining : List DeletingRelease} (valid : ledger.Valid)
    (journal : ledger.deleting = remaining) (written : s.current.ledger = some ledger)
    (apart : ∀ entry ∈ remaining,
      s.current.releases entry.id = none ∨ s.current.releases entry.trash = none) :
    (deleteReleases options ledger remaining).Completes (fun _ t =>
      (∃ final, t.current.ledger = some final ∧ final.deleting = []) ∧
      (∀ entry ∈ remaining, t.current.releases entry.id = none ∧ t.current.releases entry.trash = none) ∧
      ∀ name, s.current.releases name = none → t.current.releases name = none) s := by
  induction remaining generalizing ledger s with
  | nil => exact ⟨⟨ledger, written, journal⟩, by simp, fun _ absent => absent⟩
  | cons entry rest ih =>
    obtain ⟨known, fits⟩ := valid.deleting entry (journal ▸ List.mem_cons_self)
    have other : entry.id ≠ entry.trash := fun same => by
      have outside := not_inTrash known
      rw [same, inTrash_trash fits] at outside
      cases outside
    refine .bind ((deleteRelease_completes other (apart entry List.mem_cons_self)).mono ?_)
    rintro _ t ⟨_, original, trash, clears⟩
    refine .bind (saveLedger_completes ?_)
    refine (ih (valid.forget entry.id) (ReleaseLedger.forget_head valid journal) rfl
      fun later member => ?_).mono ?_
    · exact (apart later (List.mem_cons_of_mem _ member)).imp (clears _) (clears _)
    · rintro _ u ⟨final, gone, absent⟩
      refine ⟨final, fun later member => ?_, fun name before => absent name (clears name before)⟩
      rcases List.mem_cons.mp member with rfl | member
      · exact ⟨absent _ original, absent _ trash⟩
      · exact gone later member

/-- The trash has no place taken for a release that is not recorded yet. -/
theorem RetentionDisk.Sound.fresh {disk : RetentionDisk} (sound : disk.Sound)
    (found : disk.ledger = some ledger) {name : String} (token : TrashToken)
    (fresh : name ∉ ledger.deleting.map DeletingRelease.id) :
    disk.releases (trashName name token) = none := by
  have fits := validTrash_trashName name token
  cases present : disk.releases (trashName name token) with
  | none => rfl
  | some directory =>
    obtain ⟨_, value, same, entry, member, named⟩ := sound.trash _ directory present (inTrash_trash fits)
    cases found.symm.trans same
    have owner := entry.id_of_trash ((sound.ledger ledger found).deleting entry member).2 fits named
    exact absurd (List.mem_map.mpr ⟨entry, member, owner⟩) fresh

/-- The loop over the names completes; what it adds has a free name in the trash. -/
theorem selectReleases_completes (sound : s.current.Sound) (found : s.current.ledger = some ledger)
    (ready : options.Ready root ledger s.current) {remove : List DeletingRelease} {names : List String}
    (grows : ledger.deleting ⊆ remove)
    (apart : ∀ entry ∈ remove,
      s.current.releases entry.id = none ∨ s.current.releases entry.trash = none)
    (there : ∀ name ∈ names, (s.current.releases name).isSome = true) :
    (selectReleases root options (keptReleases options ledger)
      (ledger.deleting.map DeletingRelease.trash) remove names).Completes
      (fun more t => t = s ∧ ∀ entry ∈ more,
        s.current.releases entry.id = none ∨ s.current.releases entry.trash = none) s := by
  induction names generalizing remove with
  | nil => exact ⟨rfl, apart⟩
  | cons name rest ih =>
    have others : ∀ other ∈ rest, (s.current.releases other).isSome = true :=
      fun other member => there other (List.mem_cons_of_mem _ member)
    obtain ⟨directory, present⟩ := Option.isSome_iff_exists.mp (there name List.mem_cons_self)
    unfold selectReleases
    split
    · exact ih grows apart others
    next unstaged =>
    split
    · next trash =>
      obtain ⟨_, value, same, entry, member, named⟩ := sound.trash name directory present trash
      cases found.symm.trans same
      exact .bind (.require (named ▸ List.mem_map_of_mem member) (ih grows apart others))
    next untrashed =>
    have staged : isStage name = false := by simpa using unstaged
    have outside : inTrash name = false := by simpa using untrashed
    obtain ⟨valid, _, _⟩ := ready.formed name directory present staged outside
    have sealed := (ready.present present valid).1
    have goes : ∀ more, ledger.deleting ⊆ more → (∀ entry ∈ more,
        s.current.releases entry.id = none ∨ s.current.releases entry.trash = none) →
        (selectReleases root options (keptReleases options ledger)
          (ledger.deleting.map DeletingRelease.trash) more rest).Completes (fun more t => t = s ∧
            ∀ entry ∈ more, s.current.releases entry.id = none ∨ s.current.releases entry.trash = none) s :=
      fun more grows apart => ih grows apart others
    refine .bind (.bind (.require valid (.bind (.ask fun _ => ⟨(), by simp [sealed, Except.map], ?_⟩))))
    split
    · next chosen =>
      obtain ⟨unkept, fresh, _⟩ := chosen
      refine .bind ((releaseIdentity_completes ready (there name List.mem_cons_self) valid).mono ?_)
      rintro _ t rfl
      refine .bind ((inspectTree_completes ready staged unkept present
        (ready.removable name directory present staged outside unkept)).mono ?_)
      rintro _ t rfl
      refine .bind (.ask fun answer => ⟨_, rfl, goes _ (List.Subset.trans grows (List.subset_append_left _ _)) ?_⟩)
      intro entry member
      rcases List.mem_append.mp member with member | member
      · exact apart entry member
      · obtain rfl := List.mem_singleton.mp member
        refine .inr (sound.fresh found answer.token fun listed => fresh ?_)
        exact List.map_subset _ grows listed
    · exact goes remove grows apart

/-- The recorded deletions are finished. -/
structure ReleaseLedger.Finished (ledger : ReleaseLedger) (disk : RetentionDisk) : Prop where
  journal : ∃ final, disk.ledger = some final ∧ final.deleting = []
  gone : ∀ entry ∈ ledger.deleting, disk.releases entry.id = none ∧ disk.releases entry.trash = none

/-- When no step fails, a collection over files that let it through finishes what was recorded before. -/
theorem collectReleases_completes (sound : s.Always RetentionDisk.Sound)
    (found : s.current.ledger = some ledger) (ready : options.Ready root ledger s.current) :
    (collectReleases root options).Completes (fun _ t => ledger.Finished t.current) s := by
  have valid := sound.1.ledger ledger found
  obtain ⟨active, present⟩ := Option.isSome_iff_exists.mp ready.there
  have sealed := (ready.present present ready.known).1
  refine .bind (retentionCall_completes (.bind (.ask fun _ => ⟨ledger, ?_, ?_⟩)))
  · simp only [found]
    exact validateLedger_ok.mpr ⟨rfl, valid⟩
  refine .bind (.ask fun _ => ⟨some options.releaseId, ?_, ?_⟩)
  · simp [ready.active, sealed, ready.known, bind, Except.bind]
  refine .bind (.require ready.known (.bind (.require rfl (.bind ?_))))
  refine (releaseIdentity_completes ready ready.there ready.known).mono ?_
  rintro _ t rfl
  refine .bind (.require ready.named ?_)
  refine .bind ((Process.Completes.each fun id member => ?_).mono ?_)
  · refine .bind (lookRelease_completes ?_)
    split
    · next there => exact releaseIdentity_completes ready there ((mem_keptReleases.mp member).valid
        (recordVerified_valid valid ready.known) ready.known ready.named)
    · rfl
  rintro _ t rfl
  have start : Selected (keptReleases options ledger) t.current ledger.deleting :=
    ⟨valid.deleting, valid.once, valid.bounded, ready.unkept, fun entry member directory there =>
      ready.removable entry.id directory there (not_isStage (valid.deleting entry member).1)
        (not_inTrash (valid.deleting entry member).1) (ready.unkept entry member)⟩
  refine .bind ((Process.Completes.each fun entry member =>
    checkRecorded_completes sound.1 found ready member).mono ?_)
  rintro _ t rfl
  refine .bind (.ask fun answer => ⟨_, rfl, ?_⟩)
  refine .bind (((selectReleases_completes sound.1 found ready (List.Subset.refl _) ready.apart ?_).also
    (wp_selectReleases sound start (Q := fun more u => u = t ∧
      Selected (keptReleases options ledger) t.current more ∧ ledger.deleting ⊆ more)
      fun more selected grows => ⟨rfl, selected, grows⟩)).mono ?_)
  · intro name member
    exact (List.mem_filter.mp member).2
  rintro remove _ ⟨⟨rfl, apart⟩, _, selected, grows⟩
  have accepted := recordDeletion_valid valid ready.known selected
  refine .bind (saveLedger_completes (.bind (retentionCall_completes (.bind ?_))))
  refine (deleteReleases_completes options accepted rfl rfl ?_).mono ?_
  · exact apart
  rintro _ u ⟨final, gone, _⟩
  exact ⟨final, fun entry member => gone entry (grows member)⟩

/-- A collection never returns while a recorded release lies beside its trash. -/
theorem collectReleases_ambiguous (root : List String) (options : CollectOptions)
    (entry : DeletingRelease) (found : s.current.ledger = some ledger)
    (member : entry ∈ ledger.deleting) (original : (s.current.releases entry.id).isSome = true)
    (trash : (s.current.releases entry.trash).isSome = true) :
    (collectReleases root options).wp Process.anyAnswer (fun _ _ => False) (fun _ _ => True)
      (fun _ _ => True) s := by
  have asks : ∀ {β : Type} {site : RetentionSite} {f : RetentionAnswer → RetentionDisk → Except RetentionError β}
      {Q : β → Journaled RetentionDisk → Prop}, (∀ answer value, f answer s.current = .ok value → Q value s) →
      (retentionAsk site f).wp Process.anyAnswer Q (fun _ _ => True) (fun _ _ => True) s :=
    fun reads => Process.wp_ask trivial (fun _ => trivial) reads
  have requires : ∀ {condition : Prop} [Decidable condition] {error : RetentionError}
      {Q : Unit → Journaled RetentionDisk → Prop}, (condition → Q () s) →
      (Process.require condition error : RetentionProcess Unit).wp Process.anyAnswer Q (fun _ _ => True)
        (fun _ _ => True) s :=
    fun holds => Process.wp_require.mpr ⟨holds, fun _ => trivial⟩
  have identifies : ∀ {id : String} {Q : Unit → Journaled RetentionDisk → Prop}, Q () s →
      (releaseIdentity id).wp Process.anyAnswer Q (fun _ _ => True) (fun _ _ => True) s :=
    fun held => Process.wp_bind.mpr (requires fun _ => asks fun _ _ _ => held)
  refine Process.wp_bind.mpr (asks fun _ _ _ => Process.wp_bind.mpr (asks fun _ value read => ?_))
  have same : value = ledger := by
    simp only [found] at read
    exact (validateLedger_ok.mp read).1
  subst same
  refine Process.wp_bind.mpr (asks fun _ _ _ => Process.wp_bind.mpr (requires fun _ => ?_))
  refine Process.wp_bind.mpr (requires fun _ => Process.wp_bind.mpr (identifies ?_))
  refine Process.wp_bind.mpr (requires fun _ => Process.wp_bind.mpr ?_)
  refine (Process.wp_each (P := fun t => t = s) ?_ rfl).mono ?_ (fun _ _ held => held) fun _ _ held => held
  · rintro id _ t rfl
    exact Process.wp_bind.mpr (asks fun _ there _ => Process.wp_ite.mpr
      ⟨fun _ => identifies rfl, fun _ => rfl⟩)
  rintro _ t rfl
  refine Process.wp_bind.mpr ((Process.wp_each_never ?_ member ?_).mono
    (fun _ _ never => never.elim) (fun _ _ held => held) fun _ _ held => held)
  · intro other _
    refine Process.wp_bind.mpr (requires fun _ => Process.wp_bind.mpr (asks fun _ there _ => ?_))
    refine Process.wp_bind.mpr (asks fun _ trashed _ => Process.wp_bind.mpr (requires fun _ => ?_))
    refine Process.wp_bind.mpr (Process.wp_ite.mpr ⟨fun _ => ?_, fun _ => ?_⟩)
    · refine Process.wp_bind.mpr (identifies (asks fun _ _ _ => ?_))
      exact Process.wp_ite.mpr ⟨fun _ => asks fun _ _ _ => rfl, fun _ => rfl⟩
    · exact Process.wp_ite.mpr ⟨fun _ => asks fun _ _ _ => rfl, fun _ => rfl⟩
  · refine Process.wp_bind.mpr (requires fun _ => Process.wp_bind.mpr (asks fun _ there seen => ?_))
    refine Process.wp_bind.mpr (asks fun _ trashed also => Process.wp_bind.mpr (requires fun apart => ?_))
    cases seen
    cases also
    exact absurd ⟨original, trash⟩ apart

end Checks

end LatexRenderer
