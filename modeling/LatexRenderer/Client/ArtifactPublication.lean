import LatexRenderer.Client.ArtifactRecovery
import LatexRenderer.Machine.Table

/-! # Publishing an artifact set is atomic

Whatever steps fail and wherever a process is killed, the output of a publication is one complete set: what the
user had there, with the edits of the user, until the commit marker is on the disk, and from then on exactly
what was built. A call returns only with the new set in place and with no visible edit of the old one lost.
The next recovery puts the set that counts at the output, from every state a run can reach, and completes
unless a step fails.
-/

namespace LatexRenderer.ArtifactPublication

open Machine

/-- What a step of the build makes of the stage. -/
def BuildStep.stages (entries : List ArtifactEntry) : BuildStep → List ArtifactEntry
  | .write written => written
  | .edit _ _ => entries

/-- What it makes of the output. -/
def BuildStep.edits (output : Option ArtifactDirectory) : BuildStep → Option ArtifactDirectory
  | .write _ => output
  | .edit stat entries => output.map fun directory => directory.edited stat entries

/-- What a copy keeps of a path. -/
def ArtifactEntry.copied (entry : ArtifactEntry) : String × ArtifactKind × List UInt8 :=
  (entry.name, entry.kind, entry.content)

namespace ArtifactBuild

variable {T : Type} (build : ArtifactBuild T)

/-- The directory that was there before, as it was or as the user edited it during the build. -/
def Version (before current : Option ArtifactDirectory) : Prop :=
  current = before ∨ ∃ stat entries, .edit stat entries ∈ build.steps ∧
    current = before.map fun directory => directory.edited stat entries

/-- What the user has made of it when the build ends. -/
def latest (before : Option ArtifactDirectory) : Option ArtifactDirectory := build.steps.foldl BuildStep.edits before

/-- A complete result of the build: it works on copies of what was there before. -/
def Builds (before : Option ArtifactDirectory) (new : ArtifactDirectory) : Prop :=
  ∃ copies : List ArtifactEntry,
    copies.map ArtifactEntry.copied =
      (before.toList.flatMap fun directory => directory.entries).map ArtifactEntry.copied ∧
    new.entries = build.steps.foldl BuildStep.stages copies

end ArtifactBuild

/-- No transaction is open without its commit marker. -/
def ArtifactDisk.settled (disk : ArtifactDisk) : Bool :=
  disk.transaction.all fun transaction => transaction.committed.entry.isSome

/-- The set that counts: the output, unless a transaction is open that has moved it to the backup or has put a
first set in place. -/
def ArtifactDisk.counted (disk : ArtifactDisk) : Option ArtifactDirectory :=
  disk.transaction.elim disk.output fun transaction =>
    if transaction.committed.entry.isSome || transaction.journal.entry.isNone || transaction.stage.isSome &&
        transaction.backup.isNone then disk.output
    else transaction.backup

section Publication

variable {T : Type} {allowed : ArtifactSite → Reply ArtifactAnswer → Prop} {place : ArtifactPlace}
  {build : ArtifactBuild T} {before previous current : Option ArtifactDirectory} {new : ArtifactDirectory}
  {disk : ArtifactDisk}

/-- Between the steps of a call: what was there before counts, or, with the marker on the disk or the transaction
gone, the new set does. -/
def Amid (place : ArtifactPlace) (build : ArtifactBuild T) (before : Option ArtifactDirectory)
    (disk : ArtifactDisk) : Prop :=
  ∃ current, Shows place current disk ∧ (build.Version before current ∨
    disk.settled = true ∧ ∃ new, current = some new ∧ build.Builds before new)

/-- As long as the transaction is open, it also knows what was there before. -/
def Working (place : ArtifactPlace) (build : ArtifactBuild T) (before : Option ArtifactDirectory)
    (disk : ArtifactDisk) : Prop :=
  ∃ previous current, Stands place disk previous current ∧ build.Version before previous ∧
    (current = previous ∨ disk.settled = true ∧ ∃ new, current = some new ∧ build.Builds before new)

theorem Working.amid (working : Working place build before disk) : Amid place build before disk := by
  obtain ⟨previous, current, stands, version, same | published⟩ := working
  · exact ⟨current, stands.shows, .inl (same ▸ version)⟩
  · exact ⟨current, stands.shows, .inr published⟩

theorem Stands.working (stands : Stands place disk previous previous) (version : build.Version before previous) :
    Working place build before disk := ⟨previous, previous, stands, version, .inl rfl⟩

/-- Without the marker the directory before the transaction counts. -/
theorem Stands.removeMarker (stands : Stands place disk previous current) :
    Stands place (removeMarker disk) previous previous := by
  cases stands with
  | clean _ garbage regular few tidy => exact .clean _ garbage regular few tidy
  | prepared _ stage part regular fits small => exact .prepared _ stage part regular fits small
  | staged _ new part directory apart fits small => exact .staged _ new part directory apart fits small
  | moved saved new part apart fits small => exact .moved saved new part apart fits small
  | exchanged _ new part apart fits small => exact .exchanged _ new part apart fits small
  | committed _ new apart fits =>
    exact .exchanged _ new none apart fits ⟨fun _ never => (by cases never), fun _ never => by cases never⟩

/-- What the steps of an open transaction keep. -/
abbrev Works (allowed : ArtifactSite → Reply ArtifactAnswer → Prop) (place : ArtifactPlace) (build : ArtifactBuild T)
    (before : Option ArtifactDirectory) {α : Type} (Q : α → ArtifactDisk → Prop) (p : ArtifactProcess α)
    (disk : ArtifactDisk) : Prop :=
  p.wp allowed Q (fun _ => Working place build before) (fun _ => Working place build before) disk

theorem works_change {Q : Unit → ArtifactDisk → Prop} {site : ArtifactSite}
    {change : ArtifactAnswer → ArtifactDisk → Except ArtifactError ArtifactDisk}
    (working : Working place build before disk)
    (moves : ∀ answer after, change answer disk = .ok after → Working place build before after ∧ Q () after) :
    Works allowed place build before Q (changeDisk site change) disk := by
  refine Process.wp_step working (fun _ => working) (fun _ _ _ => working) fun answer value t moved => ?_
  cases made : change answer disk with
  | error error =>
    rw [made] at moved
    cases moved
  | ok after =>
    rw [made] at moved
    cases moved
    obtain ⟨kept, holds⟩ := moves answer _ made
    exact ⟨holds, fun _ => kept⟩

theorem works_sync {Q : Unit → ArtifactDisk → Prop} (working : Working place build before disk) (holds : Q () disk) :
    Works allowed place build before Q syncDisk disk :=
  Process.wp_change working (fun _ => working) ⟨holds, fun _ => working⟩

theorem works_ask {α : Type} {Q : α → ArtifactDisk → Prop} {site : ArtifactSite}
    {read : ArtifactAnswer → ArtifactDisk → Except ArtifactError α} (working : Working place build before disk)
    (reads : ∀ answer value, read answer disk = .ok value → Q value disk) :
    Works allowed place build before Q (Process.ask site read) disk :=
  Process.wp_look working (fun _ => working) (fun _ _ _ => working) reads

theorem works_require {Q : Unit → ArtifactDisk → Prop} {condition : Prop} [Decidable condition]
    {error : ArtifactError} (working : Working place build before disk) (holds : condition → Q () disk) :
    Works allowed place build before Q (Process.require condition error) disk :=
  Process.wp_require.mpr ⟨holds, fun _ => working⟩

theorem fresh_ne (disk : ArtifactDisk) (proposed : Nat) : disk.fresh proposed ∉ disk.identities := by
  unfold ArtifactDisk.fresh
  split
  · intro member
    have bound : id (disk.identities.sum + 1) ≤ total id disk.identities := le_total_of_mem id member
    simp only [total, List.map_id, id_eq] at bound
    omega
  · assumption

/-- What the user may edit stays the same directory. -/
theorem ArtifactBuild.Version.identity (version : build.Version before previous) :
    directoryIdentity previous = directoryIdentity before := by
  rcases version with rfl | ⟨stat, entries, _, rfl⟩
  · rfl
  · cases before <;> rfl

theorem ArtifactBuild.Version.kind (version : build.Version before previous)
    (directory : ∀ d, before = some d → d.kind = .directory) : ∀ d, previous = some d → d.kind = .directory := by
  rcases version with rfl | ⟨stat, entries, _, rfl⟩
  · exact directory
  · cases before with
    | none => exact fun d never => by cases never
    | some found =>
      intro d same
      cases same
      exact directory found rfl

theorem ArtifactBuild.Version.edits (version : build.Version before previous) {step : BuildStep}
    (member : step ∈ build.steps) : build.Version before (step.edits previous) := by
  cases step with
  | write entries => exact version
  | edit stat entries =>
    refine .inr ⟨stat, entries, member, ?_⟩
    rcases version with rfl | ⟨_, _, _, rfl⟩
    · rfl
    · cases before <;> rfl

/-- A tree that is accepted is a sound directory within the limits of a set. -/
theorem sound_of_tree {d : ArtifactDirectory} {tree : List ArtifactTreeItem} (walked : d.tree = .ok tree)
    (directory : d.kind = .directory) :
    d.Sound ∧ d.entries.length + 1 ≤ maxArtifactEntries ∧ bytesOf d.entries ≤ maxArtifactBytes := by
  obtain ⟨plain, few, small⟩ := walkArtifacts_eq_ok walked ⟨Nat.zero_le _, Nat.zero_le _⟩
  refine ⟨⟨directory, fun entry member => plain entry (List.mem_cons_of_mem _ member)⟩, ?_, ?_⟩
  · simpa [ArtifactDirectory.paths, Nat.add_comm] using few
  · simpa [ArtifactDirectory.paths, ArtifactEntry.bytes, directory] using small

theorem fits_both (stage : Option (List ArtifactTreeItem)) (tree : Option (List ArtifactTreeItem))
    (staged : optionalTree (some new) = .ok stage) (walked : optionalTree previous = .ok tree)
    (newKind : new.kind = .directory) (kind : ∀ d, previous = some d → d.kind = .directory) :
    Fits (some new) previous := by
  have sound : ∀ (d : ArtifactDirectory) (tree : Option (List ArtifactTreeItem)), d.kind = .directory →
      optionalTree (some d) = .ok tree →
      d.Sound ∧ d.entries.length + 1 ≤ maxArtifactEntries ∧ bytesOf d.entries ≤ maxArtifactBytes := by
    intro d tree directory found
    cases walk : d.tree with
    | error error => simp [optionalTree, walk, Except.map] at found
    | ok items => exact sound_of_tree walk directory
  obtain ⟨newSound, newFew, newSmall⟩ := sound new stage newKind staged
  cases previous with
  | none =>
    refine ⟨fun d same => by cases same; exact newSound, fun d never => (by cases never), ?_, ?_⟩
    · simp only [entriesHeld, Option.elim]
      omega
    · simp only [bytesHeld, Option.elim]
      omega
  | some saved =>
    obtain ⟨savedSound, savedFew, savedSmall⟩ := sound saved tree (kind saved rfl) walked
    refine ⟨fun d same => by cases same; exact newSound, fun d same => by cases same; exact savedSound, ?_, ?_⟩
    · simp only [entriesHeld, Option.elim]
      omega
    · simp only [bytesHeld, Option.elim]
      omega

/-- A stage beside the directory that was there before, with the journal of the two. -/
def stagedDisk (place : ArtifactPlace) (journaled previous : Option ArtifactDirectory) (new : ArtifactDirectory)
    (entries : List ArtifactEntry) : ArtifactDisk :=
  ⟨previous, some
    { stage := some { new with entries := entries }, journal := journalOf place journaled new }, []⟩

/-- What a stage may hold while it is built. -/
structure StageSound (before : Option ArtifactDirectory) (new : ArtifactDirectory) (entries : List ArtifactEntry) :
    Prop where
  apart : directoryIdentity before ≠ some new.stat.identity
  kind : new.kind = .directory
  stageable : Stageable entries

theorem StageSound.stands {entries : List ArtifactEntry} (sound : StageSound before new entries)
    (same : directoryIdentity previous = directoryIdentity before)
    (directory : ∀ d, previous = some d → d.kind = .directory) :
    Stands place (stagedDisk place before previous new entries) previous previous := by
  have journal : journalOf place before new = journalOf place previous { new with entries := entries } := by
    simp [journalOf, same]
  unfold stagedDisk
  rw [journal]
  refine .staged previous { new with entries := entries } none directory (same ▸ sound.apart) ?_
    ⟨fun _ never => (by cases never), fun _ never => by cases never⟩
  obtain ⟨plain, few, small⟩ := sound.stageable
  refine ⟨fun d found => ?_, fun d never => (by cases never), ?_, ?_⟩
  · cases found
    exact ⟨sound.kind, plain⟩
  · simp only [entriesHeld, Option.elim]
    omega
  · simpa [bytesHeld, bytesOf] using small

theorem StageSound.working {entries : List ArtifactEntry} (sound : StageSound before new entries)
    (directory : ∀ d, before = some d → d.kind = .directory) (version : build.Version before previous) :
    Working place build before (stagedDisk place before previous new entries) :=
  (sound.stands version.identity (version.kind directory)).working version

/-- The copies keep the names, the kinds and the contents. -/
theorem works_copies {entries : List ArtifactEntry} {Q : Unit → ArtifactDisk → Prop}
    (directory : ∀ d, before = some d → d.kind = .directory) (done : List ArtifactEntry)
    (sound : StageSound before new done)
    (plain : ∀ entry ∈ entries, entry.kind = .directory ∨ entry.kind = .file)
    (few : done.length + entries.length < 2 * maxArtifactEntries)
    (small : bytesOf done + bytesOf entries ≤ 2 * maxArtifactBytes)
    (holds : ∀ copies, StageSound before new (done ++ copies) →
      copies.map ArtifactEntry.copied = entries.map ArtifactEntry.copied →
      Q () (stagedDisk place before before new (done ++ copies))) :
    Works allowed place build before Q (Process.each entries copyEntry) (stagedDisk place before before new done) := by
  induction entries generalizing done with
  | nil =>
    have last := holds [] (by simpa using sound) rfl
    rw [List.append_nil] at last
    exact last
  | cons entry rest ih =>
    rw [List.length_cons] at few
    rw [bytesOf_cons] at small
    refine Process.wp_bind.mpr (works_change (sound.working directory (.inl rfl)) fun answer after copied => ?_)
    obtain ⟨copy, same, kind, weight, rfl⟩ : ∃ copy : ArtifactEntry, copy.copied = entry.copied ∧
        copy.kind = entry.kind ∧ copy.bytes = entry.bytes ∧
        after = stagedDisk place before before new (done ++ [copy]) := by
      cases copied
      exact ⟨{ entry with
        stat := { answer.stat with
          identity := (stagedDisk place before before new done).fresh answer.stat.identity
          size := entry.stat.size } }, rfl, rfl, rfl, rfl⟩
    have grown : StageSound before new (done ++ [copy]) := by
      obtain ⟨donePlain, doneFew, doneSmall⟩ := sound.stageable
      refine ⟨sound.apart, sound.kind, fun other member => ?_, ?_, ?_⟩
      · rcases List.mem_append.mp member with member | member
        · exact donePlain other member
        · rw [List.mem_singleton.mp member, kind]
          exact plain entry List.mem_cons_self
      · rw [List.length_append, List.length_singleton]
        omega
      · show bytesOf (done ++ [copy]) ≤ 2 * maxArtifactBytes
        simp only [bytesOf_append, bytesOf_cons, bytesOf_nil, weight]
        omega
    refine ⟨grown.working directory (.inl rfl), ih (done ++ [copy]) grown
      (fun other member => plain other (List.mem_cons_of_mem _ member)) ?_ ?_ fun copies kept matching => ?_⟩
    · rw [List.length_append, List.length_singleton]
      omega
    · simp only [bytesOf_append, bytesOf_cons, bytesOf_nil, weight]
      omega
    · rw [List.append_assoc, List.singleton_append] at kept ⊢
      exact holds (copy :: copies) kept (by simp [same, matching])

/-- The steps of the build, with the edits of the user between them. -/
theorem works_build {steps : List BuildStep} {entries : List ArtifactEntry} {Q : Unit → ArtifactDisk → Prop}
    (directory : ∀ d, before = some d → d.kind = .directory) (version : build.Version before previous)
    (sound : StageSound before new entries) (taken : ∀ step ∈ steps, step ∈ build.steps)
    (holds : build.Version before (steps.foldl BuildStep.edits previous) →
      StageSound before new (steps.foldl BuildStep.stages entries) →
      Q () (stagedDisk place before (steps.foldl BuildStep.edits previous) new
        (steps.foldl BuildStep.stages entries))) :
    Works allowed place build before Q
      (Process.each steps fun step => changeDisk .build fun _ disk => step.take disk)
      (stagedDisk place before previous new entries) := by
  induction steps generalizing previous entries with
  | nil => exact holds version sound
  | cons step rest ih =>
    have member := taken step List.mem_cons_self
    have later : ∀ other ∈ rest, other ∈ build.steps := fun other held => taken other (List.mem_cons_of_mem _ held)
    have moved : step.take (stagedDisk place before previous new entries) =
        .ok (stagedDisk place before (step.edits previous) new (step.stages entries)) := by
      cases step <;> rfl
    have next : StageSound before new (step.stages entries) := by
      cases step with
      | write written => exact ⟨sound.apart, sound.kind, build.staged written member⟩
      | edit stat edited => exact sound
    refine Process.wp_bind.mpr (works_change (sound.working directory version) fun answer after took => ?_)
    rw [moved] at took
    cases took
    exact ⟨next.working directory (version.edits member), ih (version.edits member) next later holds⟩

/-- The journal or the marker is written in whole before it has its name. -/
theorem works_writeRecord {Q : Unit → ArtifactDisk → Prop} {name : RecordName} {value : ArtifactRecord}
    {transaction : ArtifactTransaction} {output : Option ArtifactDirectory}
    (free : (transaction.record name).part = none)
    (start : Working place build before ⟨output, some transaction, []⟩)
    (created : Working place build before
      ⟨output, some (transaction.setRecord { transaction.record name with part := some none } name), []⟩)
    (written : Working place build before
      ⟨output, some (transaction.setRecord { transaction.record name with part := some (some value) } name), []⟩)
    (renamed : Working place build before
      ⟨output, some (transaction.setRecord { entry := some (some value) } name), []⟩)
    (holds : Q () ⟨output, some (transaction.setRecord { entry := some (some value) } name), []⟩) :
    Works allowed place build before Q (writeRecord name value) ⟨output, some transaction, []⟩ := by
  have record : ∀ file, (transaction.setRecord file name).record name = file := by
    intro file
    cases name <;> rfl
  have again : ∀ file other, (transaction.setRecord file name).setRecord other name =
      transaction.setRecord other name := by
    intro file other
    cases name <;> rfl
  refine Process.wp_bind.mpr (works_change start fun answer after took => ?_)
  simp only [ArtifactDisk.within, Option.elim_some, free, ne_eq, not_true_eq_false, if_false,
    Except.ok.injEq] at took
  subst took
  refine ⟨created, Process.wp_bind.mpr (works_change created fun answer after took => ?_)⟩
  simp only [ArtifactDisk.within, Option.elim_some, record, again, Except.ok.injEq] at took
  subst took
  refine ⟨written, Process.wp_bind.mpr (works_change written fun answer after took => ?_)⟩
  simp only [ArtifactDisk.within, Option.elim_some, record, again, Except.ok.injEq] at took
  subst took
  exact ⟨renamed, works_sync renamed holds⟩

/-- The new directory is at the output, and the journal knows the previous one. -/
def exchangedDisk (place : ArtifactPlace) (previous : Option ArtifactDirectory) (new : ArtifactDirectory)
    (committed : RecordFile) : ArtifactDisk :=
  ⟨some new, some { backup := previous, journal := journalOf place previous new, committed := committed }, []⟩

theorem works_exchange {Q : Unit → ArtifactDisk → Prop} (version : build.Version before previous)
    (directory : ∀ d, previous = some d → d.kind = .directory)
    (apart : directoryIdentity previous ≠ some new.stat.identity) (fits : Fits (some new) previous)
    (holds : Q () (exchangedDisk place previous new {})) :
    Works allowed place build before Q (exchange before)
      ⟨previous, some { stage := some new, journal := journalOf place previous new }, []⟩ := by
  have unmarked : RecordFile.Small place { part := none } :=
    ⟨fun _ never => (by cases never), fun _ never => by cases never⟩
  have start : Working place build before
      ⟨previous, some { stage := some new, journal := journalOf place previous new }, []⟩ :=
    (Stands.staged previous new none directory apart fits.withoutBackup unmarked).working version
  have done : Working place build before (exchangedDisk place previous new {}) :=
    (Stands.exchanged previous new none apart fits unmarked).working version
  have second : ∀ disk, Working place build before disk → moveToOutput disk = .ok (exchangedDisk place previous new {}) →
      Works allowed place build before Q (do
        syncDisk
        syncDisk
        changeDisk .moveToOutput fun _ => moveToOutput
        syncDisk
        syncDisk) disk := by
    intro disk working moved
    refine Process.wp_bind.mpr (works_sync working (Process.wp_bind.mpr (works_sync working ?_)))
    refine Process.wp_bind.mpr (works_change working fun answer after took => ?_)
    rw [moved] at took
    cases took
    exact ⟨done, Process.wp_bind.mpr (works_sync done (works_sync done holds))⟩
  have identity := version.identity
  refine Process.wp_bind.mpr ?_
  cases before with
  | none =>
    cases previous with
    | some saved => cases identity
    | none => exact second _ start rfl
  | some kept =>
    cases previous with
    | none => cases identity
    | some saved =>
      have away : Working place build (some kept) ⟨none, some
          { stage := some new, backup := some saved, journal := journalOf place (some saved) new }, []⟩ :=
        (Stands.moved saved new none (fun same => apart (congrArg some same)) fits unmarked).working version
      rw [if_pos (by simp)]
      refine works_change start fun answer after took => ?_
      have moved : moveToBackup ⟨some saved, some { stage := some new, journal := journalOf place (some saved) new }, []⟩ =
          .ok ⟨none, some
            { stage := some new, backup := some saved, journal := journalOf place (some saved) new }, []⟩ := rfl
      rw [moved] at took
      cases took
      exact ⟨away, second _ away rfl⟩

/-- What the last step before the clean-up leaves. -/
structure Published (place : ArtifactPlace) (build : ArtifactBuild T) (before : Option ArtifactDirectory) (value : T)
    (disk : ArtifactDisk) (new : ArtifactDirectory) : Prop where
  outcome : build.outcome = some value
  builds : build.Builds before new
  unedited : optionalTree (build.latest before) = optionalTree before
  exchanged : ∃ previous, directoryIdentity previous ≠ some new.stat.identity ∧ Fits (some new) previous ∧
    disk = exchangedDisk place previous new { entry := some (some (.committed new.stat.identity)) }

theorem directory_of_tree {original : Option (List ArtifactTreeItem)}
    (regular : ∀ d, before = some d → d.kind ≠ .file) (walked : optionalTree before = .ok original) :
    ∀ d, before = some d → d.kind = .directory := by
  rintro d rfl
  cases walk : d.tree with
  | error error => simp [optionalTree, walk, Except.map] at walked
  | ok items =>
    have plain := (walkArtifacts_eq_ok walk ⟨Nat.zero_le _, Nat.zero_le _⟩).1 _ List.mem_cons_self
    exact plain.resolve_right (regular d rfl)

theorem budget_of_tree {original : Option (List ArtifactTreeItem)}
    (directory : ∀ d, before = some d → d.kind = .directory) (walked : optionalTree before = .ok original) :
    (∀ entry ∈ before.toList.flatMap fun d => d.entries, entry.kind = .directory ∨ entry.kind = .file) ∧
      (before.toList.flatMap fun d => d.entries).length < 2 * maxArtifactEntries ∧
      bytesOf (before.toList.flatMap fun d => d.entries) ≤ 2 * maxArtifactBytes := by
  cases before with
  | none => exact ⟨fun entry never => (by cases never), by decide, Nat.zero_le _⟩
  | some d =>
    cases walk : d.tree with
    | error error => simp [optionalTree, walk, Except.map] at walked
    | ok items =>
      obtain ⟨sound, few, small⟩ := sound_of_tree walk (directory d rfl)
      simp only [Option.toList_some, List.flatMap_cons, List.flatMap_nil, List.append_nil]
      exact ⟨sound.plain, by omega, by omega⟩

theorem stageSound_fresh {stat : ArtifactStat} {proposed : Nat} {transaction : ArtifactTransaction} :
    StageSound before
      ⟨{ stat with identity := (⟨before, some transaction, []⟩ : ArtifactDisk).fresh proposed }, .directory, []⟩ [] := by
  refine ⟨fun same => ?_, rfl, fun _ never => (by cases never), by decide, Nat.zero_le _⟩
  cases before with
  | none => cases same
  | some d =>
    have taken : d.stat.identity = (⟨some d, some transaction, []⟩ : ArtifactDisk).fresh proposed :=
      Option.some.inj same
    refine fresh_ne ⟨some d, some transaction, []⟩ proposed ?_
    rw [← taken]
    simp [ArtifactDisk.identities, ArtifactDirectory.paths]

/-- Once the stage is complete and the output unedited, the two are exchanged and the marker is written. -/
theorem works_publish {value : T} {entries : List ArtifactEntry} {stage : Option (List ArtifactTreeItem)}
    {original : Option (List ArtifactTreeItem)} (directory : ∀ d, before = some d → d.kind = .directory)
    (walked : optionalTree before = .ok original) (version : build.Version before previous)
    (latest : previous = build.latest before) (sound : StageSound before new entries)
    (builds : build.Builds before { new with entries := entries }) (returned : build.outcome = some value)
    (staged : optionalTree (some { new with entries := entries }) = .ok stage)
    (unedited : optionalTree previous = .ok original) :
    Works allowed place build before (fun value t => ∃ new, Published place build before value t new) (do
      exchange before
      writeRecord .committed (.committed new.stat.identity)
      pure value) (stagedDisk place before previous new entries) := by
  have kinds := version.kind directory
  have apart : directoryIdentity previous ≠ some new.stat.identity := version.identity ▸ sound.apart
  have fits : Fits (some { new with entries := entries }) previous := fits_both stage original staged unedited sound.kind kinds
  have journal : journalOf place before new = journalOf place previous { new with entries := entries } := by
    simp [journalOf, version.identity]
  unfold stagedDisk
  rw [journal]
  refine Process.wp_bind.mpr (works_exchange version kinds apart fits ?_)
  have unmarked : ∀ part, RecordFile.Small place { part := part } → Working place build before
      (exchangedDisk place previous { new with entries := entries } { part := part }) := fun part small =>
    (Stands.exchanged previous { new with entries := entries } part apart fits small).working version
  have marked : Working place build before (exchangedDisk place previous { new with entries := entries }
      { entry := some (some (.committed new.stat.identity)) }) :=
    ⟨previous, _, .committed previous { new with entries := entries } apart fits, version, .inr ⟨rfl, _, rfl, builds⟩⟩
  refine Process.wp_bind.mpr (works_writeRecord rfl (unmarked none ⟨fun _ never => (by cases never),
    fun _ never => by cases never⟩) (unmarked (some none) ?_) (unmarked (some (some _)) ?_) marked ?_)
  · refine ⟨fun _ never => (by cases never), fun content found => ?_⟩
    cases found
    exact place.incomplete_fits
  · refine ⟨fun _ never => (by cases never), fun content found => ?_⟩
    cases found
    exact place.marker_fits _
  · exact ⟨_, returned, builds, by rw [← latest, unedited, walked], previous, apart, fits, rfl⟩

/-- Everything between the two directories `transaction` and the commit marker. -/
theorem works_stageAndCommit {original : Option (List ArtifactTreeItem)}
    (regular : ∀ d, before = some d → d.kind ≠ .file) (walked : optionalTree before = .ok original) :
    Works allowed place build before (fun value t => ∃ new, Published place build before value t new)
      (stageAndCommit place build before original) ⟨before, some {}, []⟩ := by
  have directory := directory_of_tree regular walked
  obtain ⟨plain, few, small⟩ := budget_of_tree directory walked
  have unmarked : RecordFile.Small place { part := none } :=
    ⟨fun _ never => (by cases never), fun _ never => by cases never⟩
  have nothing : Fits none none :=
    ⟨fun d never => (by cases never), fun d never => (by cases never), Nat.zero_le _, Nat.zero_le _⟩
  have opened : Working place build before ⟨before, some {}, []⟩ :=
    (Stands.prepared before none none regular nothing unmarked).working (.inl rfl)
  refine Process.wp_bind.mpr (works_change opened fun answer after made => ?_)
  obtain ⟨new, sound, rfl⟩ : ∃ new : ArtifactDirectory, StageSound before new [] ∧
      after = ⟨before, some { stage := some { new with entries := [] } }, []⟩ := by
    cases made
    exact ⟨_, stageSound_fresh, rfl⟩
  have empty : Fits (some { new with entries := [] }) none := by
    refine ⟨fun d found => ?_, fun d never => (by cases never), by simp [entriesHeld, maxArtifactEntries],
      by simp [bytesHeld]⟩
    cases found
    exact ⟨sound.kind, fun entry never => by cases never⟩
  have staged : ∀ part, RecordFile.Small place { part := part } → Working place build before
      ⟨before, some { stage := some { new with entries := [] }, journal := { part := part } }, []⟩ := fun part fits =>
    (Stands.prepared before _ part regular empty fits).working (.inl rfl)
  refine ⟨staged none unmarked, Process.wp_bind.mpr (works_ask (staged none unmarked) fun answer journal read => ?_)⟩
  obtain rfl : journal = (directoryIdentity before, new.stat.identity) := by
    cases before <;> cases read <;> rfl
  have renamed : Working place build before (stagedDisk place before before new []) :=
    sound.working directory (.inl rfl)
  refine Process.wp_bind.mpr (works_writeRecord rfl (staged none unmarked) (staged (some none) ?_)
    (staged (some (some _)) ?_) renamed ?_)
  · refine ⟨fun _ never => (by cases never), fun content found => ?_⟩
    cases found
    exact place.incomplete_fits
  · refine ⟨fun _ never => (by cases never), fun content found => ?_⟩
    cases found
    exact place.journal_fits _ _
  refine Process.wp_bind.mpr (works_sync renamed (Process.wp_bind.mpr ?_))
  refine works_copies directory [] sound plain (by simpa using few) (by simpa using small) fun copies copied matching => ?_
  rw [List.nil_append] at copied ⊢
  refine Process.wp_bind.mpr (works_build directory (.inl rfl) copied (fun _ member => member) fun version built => ?_)
  have working : Working place build before (stagedDisk place before (build.latest before) new
      (build.steps.foldl BuildStep.stages copies)) := built.working directory version
  refine Process.wp_bind.mpr (Process.wp_ofExcept.mpr ⟨fun value returned => ?_, fun _ _ => working⟩)
  refine Process.wp_bind.mpr (works_ask working fun _ stage stageWalked => Process.wp_bind.mpr (works_ask working
    fun _ sameParent _ => Process.wp_bind.mpr (works_require working fun _ => Process.wp_bind.mpr (works_ask working
    fun _ tree treeWalked => Process.wp_bind.mpr (works_require working fun unedited => ?_)))))
  refine works_publish directory walked version rfl built ⟨copies, matching, rfl⟩ ?_ stageWalked
    (treeWalked.trans (congrArg Except.ok unedited.symm))
  cases outcome : build.outcome with
  | none =>
    rw [outcome] at returned
    cases returned
  | some result =>
    rw [outcome] at returned
    exact congrArg some (Except.ok.inj returned)

/-- How a call ends. -/
def Returned (place : ArtifactPlace) (build : ArtifactBuild T) (before : Option ArtifactDirectory) (value : T)
    (disk : ArtifactDisk) : Prop :=
  ∃ new, Shows place (some new) disk ∧ disk.output = some new ∧ disk.settled = true ∧ build.outcome = some value ∧
    build.Builds before new ∧ optionalTree (build.latest before) = optionalTree before

/-- A discarded transaction leaves the output alone. -/
theorem discard_output : (discardTransaction place).Steps fun _ s t =>
    t.output = s.output ∧ (t.transaction = s.transaction ∨ t.transaction = none) := by
  refine .bind (.act (fun _ => ⟨rfl, .inl rfl⟩) fun answer s value t made => ?_) fun _ =>
    .bind (.modify (fun _ => ⟨rfl, .inl rfl⟩) fun _ => ⟨rfl, .inl rfl⟩) fun _ =>
    .bind (.ask fun _ => ⟨rfl, .inl rfl⟩) fun tree =>
    .each fun _ => .act (fun _ => ⟨rfl, .inl rfl⟩) fun answer s value t made => ?_
  · obtain ⟨output, transaction, garbage⟩ := s
    cases transaction <;> cases made
    exact ⟨rfl, .inr rfl⟩
  · obtain ⟨output, transaction, garbage⟩ := s
    cases garbage <;> cases made
    exact ⟨rfl, .inl rfl⟩

/-- What one call does, from any state that shows a set. -/
theorem publishArtifactSet_wp (shows : Shows place before disk) :
    (publishArtifactSet place build).wp allowed (Returned place build before) (fun _ => Amid place build before)
      (fun _ => Amid place build before) disk := by
  obtain ⟨previous, stands⟩ := shows
  have amid : ∀ {t}, Shows place before t → Amid place build before t := fun shown => ⟨before, shown, .inl (.inl rfl)⟩
  refine Process.wp_bind.mpr ((recovers_recover stands).mono (fun _ t same => ?_)
    (fun _ _ blamed => amid blamed.2.2) fun _ _ => amid)
  subst same
  have clean : Shows place before ⟨before, none, []⟩ :=
    (Stands.clean before [] stands.regular (by simp) (by simp)).shows
  have inspected : Recovers allowed place before (fun found t => found = before ∧ t = ⟨before, none, []⟩)
      (inspectDisk fun disk => disk.output) ⟨before, none, []⟩ := recovers_inspect clean ⟨rfl, rfl⟩
  refine Process.wp_bind.mpr (inspected.mono (fun found t held => ?_) (fun _ _ blamed => amid blamed.2.2)
    fun _ _ => amid)
  obtain ⟨rfl, rfl⟩ := held
  refine Process.wp_bind.mpr (Process.wp_ofExcept.mpr ⟨fun original walked => ?_, fun _ _ => amid clean⟩)
  have opened : Shows place found ⟨found, some {}, []⟩ :=
    (Stands.prepared found none none stands.regular ⟨fun d never => (by cases never), fun d never => (by cases never),
      Nat.zero_le _, Nat.zero_le _⟩ ⟨fun _ never => (by cases never), fun _ never => by cases never⟩).shows
  refine Process.wp_bind.mpr (Process.wp_step (amid clean) (fun _ => amid clean) (fun _ _ _ => amid clean) ?_)
  intro answer value t made
  cases made
  refine ⟨?_, fun _ => amid opened⟩
  refine Process.wp_bind.mpr (Process.wp_tryCatch.mpr ((works_stageAndCommit stands.regular walked).mono ?_ ?_
    fun _ _ working => working.amid))
  · rintro value t ⟨new, published⟩
    obtain ⟨previous, apart, fits, rfl⟩ := published.exchanged
    have committed : Stands place _ previous (some new) := .committed previous new apart fits
    have promise : Recovers allowed place (some new) _ (discardTransaction place) _ :=
      recovers_discard (fun d same => by simp [(fits.stage_sound d same).kind]) committed.shows
        (fits.withoutStage.removable small_journalOf small_marker)
    have kept : (discardTransaction place).wp allowed (fun _ t => t.output = some new ∧ t.settled = true)
        (fun _ t => t.output = some new ∧ t.settled = true) (fun _ t => t.output = some new ∧ t.settled = true)
        (exchangedDisk place previous new { entry := some (some (.committed new.stat.identity)) }) := by
      refine discard_output.wp (fun _ _ _ held _ => held) (fun _ s t held moved => ?_) ⟨rfl, rfl⟩
      refine ⟨moved.1.trans held.1, ?_⟩
      rcases moved.2 with same | gone
      · simpa [ArtifactDisk.settled, same] using held.2
      · simp [ArtifactDisk.settled, gone]
    have ended : ∀ {t}, Shows place (some new) t → t.output = some new ∧ t.settled = true →
        Returned place build found value t := fun shown there =>
      ⟨new, shown, there.1, there.2, published.outcome, published.builds, published.unedited⟩
    refine Process.wp_bind.mpr (Process.wp_attempt.mpr ((Process.wp.and promise kept).mono ?_ ?_ ?_))
    · rintro _ t ⟨rfl, there⟩
      exact ended (Stands.clean (some new) [] (fun d same => by simp [(fits.stage_sound d same).kind])
        (by simp) (by simp)).shows there
    · exact fun _ t held => ended held.1.2.2 held.2
    · exact fun _ t held => ⟨some new, held.1, .inr ⟨held.2.2, new, rfl, published.builds⟩⟩
  · rintro error t ⟨previous, current, stands, version, which⟩
    have working : Working place build found t := ⟨previous, current, stands, version, which⟩
    have undone : Shows place previous (removeMarker t) := stands.removeMarker.shows
    have back : ∀ {t}, Shows place previous t → Amid place build found t := fun shown => ⟨previous, shown, .inl version⟩
    refine Process.wp_bind.mpr (Process.wp_change working.amid (fun _ => working.amid) ⟨?_, fun _ => back undone⟩)
    exact Process.wp_bind.mpr ((recovers_recover stands.removeMarker).mono (fun _ t same =>
      back (same ▸ (Stands.clean previous [] stands.removeMarker.regular (by simp) (by simp)).shows))
      (fun _ _ blamed => back blamed.2.2) fun _ _ => back)

theorem Shows.counted (shows : Shows place current disk) : disk.counted = current := by
  obtain ⟨previous, stands⟩ := shows
  cases stands <;> simp [ArtifactDisk.counted, journalOf]

theorem Shows.kept {d : ArtifactDirectory} (shows : Shows place (some d) disk) :
    disk.output = some d ∨ ∃ transaction, disk.transaction = some transaction ∧ transaction.backup = some d := by
  obtain ⟨previous, stands⟩ := shows
  cases stands with
  | clean | prepared | staged | committed => exact .inl rfl
  | moved saved new part apart fits small => exact .inr ⟨_, rfl, rfl⟩
  | exchanged previous new part apart fits small => exact .inr ⟨_, rfl, rfl⟩

end Publication

/-- The calls of `publishArtifactSet` for one output, one at a time. Between them the user may do to the output
what they like, as long as no transaction is open and they put no file there. -/
def publications (place : ArtifactPlace) (T : Type) :
    Service (ArtifactBuild T) ArtifactSite ArtifactDisk ArtifactAnswer ArtifactError T
      (Option ArtifactDirectory) where
  Init disk := disk.transaction = none ∧ disk.garbage = [] ∧ ∀ d, disk.output = some d → d.kind ≠ .file
  program build := publishArtifactSet place build
  drift change disk :=
    if disk.transaction = none ∧ ∀ d ∈ change, d.kind ≠ .file then some { disk with output := change } else none

section Runs

variable {T : Type} {place : ArtifactPlace}
  {origin host : Host (ArtifactBuild T) ArtifactSite ArtifactDisk ArtifactAnswer ArtifactError T}
  {events : List (HostEvent (ArtifactBuild T) ArtifactSite ArtifactAnswer ArtifactError T (Option ArtifactDirectory))}

/-- In every run each call works on the set that counted when it began. -/
theorem publications_session (init : (publications place T).machine.Init origin)
    (run : Run (publications place T).machine origin events host) :
    (host.running = none → ∃ before, Shows place before host.shared) ∧
      ∀ session, host.running = some session → (∃ before, Shows place before session.began) ∧
        session.rest.wp Process.anyAnswer (Returned place session.call session.began.counted)
          (fun _ => Amid place session.call session.began.counted)
          (fun _ => Amid place session.call session.began.counted) host.shared := by
  refine Service.session_wp (fun disk => ∃ before, Shows place before disk)
    (fun call began _ => Amid place call began.counted) (fun call began => Returned place call began.counted)
    (fun call began _ => Amid place call began.counted) ?_ ?_ ?_ ?_ ?_ ?_ init run fun event _ => ?_
  · rintro ⟨output, transaction, garbage⟩ ⟨closed, tidy, regular⟩
    cases closed
    cases tidy
    exact ⟨output, (Stands.clean output [] regular (by simp) (by simp)).shows⟩
  · rintro call s ⟨before, shows⟩
    rw [shows.counted]
    exact publishArtifactSet_wp shows
  · rintro call began site s ⟨current, shows, _⟩
    exact ⟨current, shows⟩
  · rintro call began value s ⟨new, shows, _⟩
    exact ⟨_, shows⟩
  · rintro call began error s ⟨current, shows, _⟩
    exact ⟨current, shows⟩
  · rintro change ⟨output, transaction, garbage⟩ t ⟨before, previous, stands⟩ moved
    simp only [publications] at moved
    split at moved
    · next allowed =>
      cases moved
      obtain ⟨closed, regular⟩ := allowed
      cases closed
      cases stands with
      | clean _ _ _ few tidy => exact ⟨change, (Stands.clean change garbage regular few tidy).shows⟩
    · cases moved
  · cases event <;> trivial

/-- A publication is atomic: in every situation that a run can reach, the set that counts is on the disk, it is
what the user had when the running call began or what that call built in whole, and the next recovery puts it
at the output, however often it is interrupted; it fails only when the file system does. A call that returns
has its set at the output, and no edit of the user was lost. -/
theorem publications_atomic (init : (publications place T).machine.Init origin)
    (run : Run (publications place T).machine origin events host) :
    ((recover place).wp Process.anyAnswer (fun _ t => t = ⟨host.shared.counted, none, []⟩)
        (fun error t => error = .fileSystem ∧ t.counted = host.shared.counted)
        (fun _ t => t.counted = host.shared.counted) host.shared ∧
      (recover place).Completes (fun _ t => t = ⟨host.shared.counted, none, []⟩) host.shared) ∧
    (∀ d, host.shared.counted = some d → host.shared.output = some d ∨
      ∃ transaction, host.shared.transaction = some transaction ∧ transaction.backup = some d) ∧
    (∀ session, host.running = some session →
      session.call.Version session.began.counted host.shared.counted ∨ host.shared.settled = true ∧
        ∃ new, host.shared.counted = some new ∧ session.call.Builds session.began.counted new) ∧
    ∀ call value target, (publications place T).Step host (.finish call (.ok value)) target →
      ∃ session new, host.running = some session ∧ session.call = call ∧ call.outcome = some value ∧
        target.shared.output = some new ∧ target.shared.counted = some new ∧
        call.Builds session.began.counted new ∧
        optionalTree (call.latest session.began.counted) = optionalTree session.began.counted := by
  have sessions := publications_session init run
  have amid : ∀ session, host.running = some session → Amid place session.call session.began.counted host.shared ∨
      ∃ value, session.rest = .ret value ∧ Returned place session.call session.began.counted value host.shared := by
    intro session running
    have held := (sessions.2 session running).2
    cases rest : session.rest with
    | ret value =>
      rw [rest] at held
      exact .inr ⟨value, rfl, held⟩
    | raise error =>
      rw [rest] at held
      exact .inl held
    | perform site effect next =>
      rw [rest] at held
      exact .inl held.1
  have shown : ∃ current, Shows place current host.shared := by
    cases running : host.running with
    | none => exact sessions.1 running
    | some session =>
      rcases amid session running with ⟨current, shows, _⟩ | ⟨value, _, new, shows, _⟩
      · exact ⟨current, shows⟩
      · exact ⟨_, shows⟩
  obtain ⟨current, shows⟩ := shown
  refine ⟨?_, ?_, ?_, ?_⟩
  · rw [shows.counted]
    obtain ⟨previous, stands⟩ := shows
    exact ⟨(recovers_recover stands).mono (fun _ _ same => same) (fun _ _ blamed => ⟨blamed.1, blamed.2.2.counted⟩)
      fun _ _ between => between.counted, recover_completes stands⟩
  · intro d same
    rw [shows.counted] at same
    exact (same ▸ shows).kept
  · intro session running
    rcases amid session running with ⟨current, shows, which⟩ | ⟨value, _, new, shows, _, settled, _, builds, _⟩
    · rw [shows.counted]
      exact which
    · exact .inr ⟨settled, new, shows.counted, builds⟩
  · intro call value target step
    cases step with
    | returned s call began value =>
      obtain ⟨new, shows, there, _, outcome, builds, unedited⟩ := (sessions.2 _ rfl).2
      exact ⟨_, new, rfl, rfl, outcome, there, shows.counted, builds, unedited⟩

end Runs

end LatexRenderer.ArtifactPublication
