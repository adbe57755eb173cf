import LatexRenderer.Model.Client.ArtifactTransaction

/-! # Recovering an artifact set

Every state that a publication can leave behind shows one complete set: the one that was there before the
transaction, or, once the commit marker is on the disk, the new one. `recover` brings each of them to that set,
stops nowhere in between in a state that shows another one, and reports nothing but failures of the file
system.
-/

namespace LatexRenderer.ArtifactPublication

open Machine

/-- A directory or a regular file of the user. -/
def ArtifactEntry.Plain (entry : ArtifactEntry) : Prop := entry.kind = .directory ∨ entry.kind = .file

/-- The bytes of some paths. -/
def bytesOf (paths : List ArtifactEntry) : Nat := (paths.map ArtifactEntry.bytes).sum

@[simp] theorem bytesOf_nil : bytesOf [] = 0 := rfl

@[simp] theorem bytesOf_cons {entry : ArtifactEntry} {rest : List ArtifactEntry} :
    bytesOf (entry :: rest) = entry.bytes + bytesOf rest := by
  simp [bytesOf]

@[simp] theorem bytesOf_append {first rest : List ArtifactEntry} :
    bytesOf (first ++ rest) = bytesOf first + bytesOf rest := by
  simp [bytesOf]

theorem walkArtifacts_plain {entryLimit byteLimit count bytes : Nat} {paths : List ArtifactEntry}
    (plain : ∀ entry ∈ paths, entry.Plain) (few : count + paths.length ≤ entryLimit)
    (small : bytes + bytesOf paths ≤ byteLimit) :
    walkArtifacts entryLimit byteLimit paths count bytes = .ok (paths.map ArtifactEntry.item) := by
  induction paths generalizing count bytes with
  | nil => rfl
  | cons entry rest ih =>
    rw [bytesOf_cons] at small
    rw [List.length_cons] at few
    have inner : walkArtifacts entryLimit byteLimit rest (count + 1) (bytes + entry.bytes) = _ := ih
      (fun other member => plain other (List.mem_cons_of_mem _ member)) (by omega) (by omega)
    rcases plain entry List.mem_cons_self with kind | kind <;>
      simp [walkArtifacts, kind, inner, Except.map, show ¬ entryLimit < count + 1 by omega,
        show ¬ byteLimit < bytes + entry.bytes by omega]

/-- What is walked is plain and within the limits. -/
theorem walkArtifacts_eq_ok {entryLimit byteLimit count bytes : Nat} {paths : List ArtifactEntry}
    {tree : List ArtifactTreeItem} (walked : walkArtifacts entryLimit byteLimit paths count bytes = .ok tree)
    (started : count ≤ entryLimit ∧ bytes ≤ byteLimit) :
    (∀ entry ∈ paths, entry.Plain) ∧ count + paths.length ≤ entryLimit ∧ bytes + bytesOf paths ≤ byteLimit := by
  induction paths generalizing count bytes tree with
  | nil => simpa using started
  | cons entry rest ih =>
    unfold walkArtifacts at walked
    split at walked
    · cases walked
    split at walked
    · cases walked
    split at walked
    · cases walked
    split at walked
    · cases walked
    next mounted foreign few small =>
    cases inner : walkArtifacts entryLimit byteLimit rest (count + 1) (bytes + entry.bytes) with
    | error error =>
      rw [inner] at walked
      cases walked
    | ok below =>
      obtain ⟨plain, counted, weighed⟩ := ih inner (by omega)
      have own : entry.Plain := by
        unfold ArtifactEntry.Plain
        cases kind : entry.kind <;> simp_all
      refine ⟨List.forall_mem_cons.mpr ⟨own, plain⟩, ?_, ?_⟩
      · rw [List.length_cons]
        omega
      · rw [bytesOf_cons]
        omega

/-- What `removeTree` does not refuse. -/
structure Removable (paths : List ArtifactEntry) : Prop where
  plain : ∀ entry ∈ paths, entry.Plain
  few : paths.length ≤ 2 * maxArtifactEntries + 16
  small : bytesOf paths ≤ 2 * maxArtifactBytes + 65536

theorem Removable.cleanupTree {paths : List ArtifactEntry} (removable : Removable paths) :
    cleanupTree paths = .ok (paths.map ArtifactEntry.item) :=
  walkArtifacts_plain removable.plain (by simpa using removable.few) (by simpa using removable.small)

theorem Removable.dropLast {paths : List ArtifactEntry} (removable : Removable paths) :
    Removable paths.dropLast := by
  constructor
  · exact fun entry member => removable.plain entry (List.dropLast_subset paths member)
  · have := removable.few
    rw [List.length_dropLast]
    omega
  · have whole := removable.small
    rcases List.eq_nil_or_concat paths with rfl | ⟨start, last, rfl⟩
    · simp
    · simp only [List.concat_eq_append, bytesOf_append] at whole
      simp only [List.concat_eq_append, List.dropLast_concat]
      omega

/-- How many paths a directory has. -/
def entriesHeld (directory : Option ArtifactDirectory) : Nat := directory.elim 0 fun d => d.entries.length + 1

/-- How many bytes it has. -/
def bytesHeld (directory : Option ArtifactDirectory) : Nat := directory.elim 0 fun d => bytesOf d.entries

/-- A directory of plain paths. -/
structure ArtifactDirectory.Sound (directory : ArtifactDirectory) : Prop where
  kind : directory.kind = .directory
  plain : ∀ entry ∈ directory.entries, entry.Plain

/-- The directories in a transaction are what a cleanup takes. -/
structure Fits (stage backup : Option ArtifactDirectory) : Prop where
  stage_sound : ∀ d, stage = some d → d.Sound
  backup_sound : ∀ d, backup = some d → d.Sound
  entries : entriesHeld stage + entriesHeld backup ≤ 2 * maxArtifactEntries
  bytes : bytesHeld stage + bytesHeld backup ≤ 2 * maxArtifactBytes

theorem Fits.withoutStage {stage backup : Option ArtifactDirectory} (fits : Fits stage backup) :
    Fits none backup := by
  constructor
  · intro d never
    cases never
  · exact fits.backup_sound
  · exact Nat.le_trans (by simp [entriesHeld]) fits.entries
  · exact Nat.le_trans (by simp [bytesHeld]) fits.bytes

theorem Fits.withoutBackup {stage backup : Option ArtifactDirectory} (fits : Fits stage backup) :
    Fits stage none := by
  constructor
  · exact fits.stage_sound
  · intro d never
    cases never
  · exact Nat.le_trans (by simp [entriesHeld]) fits.entries
  · exact Nat.le_trans (by simp [bytesHeld]) fits.bytes

/-- The files of a record are within the limit. -/
def RecordFile.Small (place : ArtifactPlace) (file : RecordFile) : Prop :=
  (∀ content, file.entry = some content → place.recordSize content ≤ 16384) ∧
    ∀ content, file.part = some content → place.recordSize content ≤ 16384

theorem paths_option {directory : Option ArtifactDirectory} (name : String)
    (sound : ∀ d, directory = some d → d.Sound) :
    (∀ entry ∈ directory.toList.flatMap fun d => d.paths name, entry.Plain) ∧
      (directory.toList.flatMap fun d => d.paths name).length = entriesHeld directory ∧
      bytesOf (directory.toList.flatMap fun d => d.paths name) = bytesHeld directory := by
  cases directory with
  | none => simp [entriesHeld, bytesHeld]
  | some d =>
    obtain ⟨kind, plain⟩ := sound d rfl
    refine ⟨?_, ?_, ?_⟩
    · simpa [ArtifactDirectory.paths, ArtifactEntry.Plain, kind] using plain
    · simp [ArtifactDirectory.paths, entriesHeld]
    · simp [ArtifactDirectory.paths, bytesHeld, ArtifactEntry.bytes, kind]

theorem RecordFile.Small.paths {place : ArtifactPlace} {file : RecordFile} (small : file.Small place)
    (name : String) :
    (∀ entry ∈ file.paths place name, entry.Plain) ∧ (file.paths place name).length ≤ 2 ∧
      bytesOf (file.paths place name) ≤ 2 * 16384 := by
  obtain ⟨part, entry⟩ := file
  obtain ⟨entrySmall, partSmall⟩ := small
  cases part <;> cases entry <;>
    simp_all [RecordFile.paths, ArtifactEntry.Plain, ArtifactEntry.bytes] <;> omega

/-- A transaction of this client can be cleaned up. -/
theorem Fits.removable {place : ArtifactPlace} {stage backup : Option ArtifactDirectory}
    {journal committed : RecordFile} (fits : Fits stage backup) (journalSmall : journal.Small place)
    (committedSmall : committed.Small place) :
    Removable (ArtifactTransaction.paths place
      { stage := stage, backup := backup, journal := journal, committed := committed }) := by
  obtain ⟨stagePlain, stageLength, stageBytes⟩ := paths_option "stage" fits.stage_sound
  obtain ⟨backupPlain, backupLength, backupBytes⟩ := paths_option "backup" fits.backup_sound
  obtain ⟨journalPlain, journalLength, journalBytes⟩ := journalSmall.paths "journal.json"
  obtain ⟨committedPlain, committedLength, committedBytes⟩ := committedSmall.paths "committed.json"
  have entries := fits.entries
  have bytes := fits.bytes
  constructor
  · simp only [ArtifactTransaction.paths, List.mem_cons, List.mem_append, List.not_mem_nil, or_false]
    rintro entry (rfl | ((member | member) | member) | member)
    · exact .inl rfl
    · exact stagePlain entry member
    · exact backupPlain entry member
    · exact journalPlain entry member
    · exact committedPlain entry member
  · simp only [ArtifactTransaction.paths, List.length_cons, List.length_append, List.length_nil]
    omega
  · simp only [ArtifactTransaction.paths, bytesOf_cons, bytesOf_append, bytesOf_nil, ArtifactEntry.bytes, if_true]
    omega

/-- The journal of a transaction from `previous` to `new`. -/
def journalOf (place : ArtifactPlace) (previous : Option ArtifactDirectory) (new : ArtifactDirectory) : RecordFile :=
  { entry := some (some (.journal place.output (directoryIdentity previous) new.stat.identity)) }

/-- The states a publication passes through: the directory before the transaction, and the one that counts. -/
inductive Stands (place : ArtifactPlace) :
    ArtifactDisk → Option ArtifactDirectory → Option ArtifactDirectory → Prop
  | clean (output : Option ArtifactDirectory) (garbage : List (List ArtifactEntry))
      (regular : ∀ d, output = some d → d.kind ≠ .file) (few : garbage.length ≤ 1)
      (tidy : ∀ paths ∈ garbage, paths ≠ [] ∧ Removable paths) :
      Stands place ⟨output, none, garbage⟩ output output
  | prepared (output stage : Option ArtifactDirectory) (part : Option (Option ArtifactRecord))
      (regular : ∀ d, output = some d → d.kind ≠ .file) (fits : Fits stage none)
      (small : RecordFile.Small place { part := part }) :
      Stands place ⟨output, some { stage := stage, journal := { part := part } }, []⟩ output output
  | staged (previous : Option ArtifactDirectory) (new : ArtifactDirectory) (part : Option (Option ArtifactRecord))
      (directory : ∀ d, previous = some d → d.kind = .directory)
      (apart : directoryIdentity previous ≠ some new.stat.identity) (fits : Fits (some new) none)
      (small : RecordFile.Small place { part := part }) :
      Stands place ⟨previous,
        some { stage := some new, journal := journalOf place previous new, committed := { part := part } }, []⟩
        previous previous
  | moved (saved new : ArtifactDirectory) (part : Option (Option ArtifactRecord))
      (apart : saved.stat.identity ≠ new.stat.identity) (fits : Fits (some new) (some saved))
      (small : RecordFile.Small place { part := part }) :
      Stands place ⟨none, some
        { stage := some new
          backup := some saved
          journal := journalOf place (some saved) new
          committed := { part := part } }, []⟩ (some saved) (some saved)
  | exchanged (previous : Option ArtifactDirectory) (new : ArtifactDirectory)
      (part : Option (Option ArtifactRecord)) (apart : directoryIdentity previous ≠ some new.stat.identity)
      (fits : Fits (some new) previous) (small : RecordFile.Small place { part := part }) :
      Stands place ⟨some new,
        some { backup := previous, journal := journalOf place previous new, committed := { part := part } }, []⟩
        previous previous
  | committed (previous : Option ArtifactDirectory) (new : ArtifactDirectory)
      (apart : directoryIdentity previous ≠ some new.stat.identity) (fits : Fits (some new) previous) :
      Stands place ⟨some new, some
        { backup := previous
          journal := journalOf place previous new
          committed := { entry := some (some (.committed new.stat.identity)) } }, []⟩ previous (some new)

/-- This set counts, whatever was there before. -/
def Shows (place : ArtifactPlace) (current : Option ArtifactDirectory) (disk : ArtifactDisk) : Prop :=
  ∃ previous, Stands place disk previous current

theorem Stands.shows {place : ArtifactPlace} {disk : ArtifactDisk} {previous current : Option ArtifactDirectory}
    (stands : Stands place disk previous current) : Shows place current disk := ⟨previous, stands⟩

theorem Stands.regular {place : ArtifactPlace} {disk : ArtifactDisk} {previous current : Option ArtifactDirectory}
    (stands : Stands place disk previous current) : ∀ d, current = some d → d.kind ≠ .file := by
  have sound : ∀ d : ArtifactDirectory, d.Sound → d.kind ≠ .file := fun d sound => by simp [sound.kind]
  cases stands with
  | clean output garbage regular few tidy => exact regular
  | prepared output stage part regular fits small => exact regular
  | staged previous new part directory apart fits small => exact fun d same => by simp [directory d same]
  | moved saved new part apart fits small => exact fun d same => sound d (fits.backup_sound d same)
  | exchanged previous new part apart fits small => exact fun d same => sound d (fits.backup_sound d same)
  | committed previous new apart fits => exact fun d same => sound d (fits.stage_sound d same)

/-- An error that a failing step explains, in a state that still shows the set. -/
def Blamed (allowed : ArtifactSite → Reply ArtifactAnswer → Prop) (place : ArtifactPlace)
    (current : Option ArtifactDirectory) (error : ArtifactError) (disk : ArtifactDisk) : Prop :=
  error = .fileSystem ∧ Process.Faulty allowed ∧ Shows place current disk

section Recovery

variable {allowed : ArtifactSite → Reply ArtifactAnswer → Prop} {place : ArtifactPlace}
  {output previous current : Option ArtifactDirectory} {disk : ArtifactDisk}

/-- What a step of the recovery keeps. -/
abbrev Recovers (allowed : ArtifactSite → Reply ArtifactAnswer → Prop) (place : ArtifactPlace)
    (current : Option ArtifactDirectory) {α : Type} (Q : α → ArtifactDisk → Prop) (p : ArtifactProcess α)
    (disk : ArtifactDisk) : Prop :=
  p.wp allowed Q (Blamed allowed place current) (fun _ t => Shows place current t) disk

theorem recovers_inspect {α : Type} {Q : α → ArtifactDisk → Prop} {read : ArtifactDisk → α}
    (shows : Shows place current disk) (holds : Q (read disk) disk) :
    Recovers allowed place current Q (inspectDisk read) disk := by
  refine Process.wp_look shows (fun faulty => ⟨rfl, faulty, shows⟩) (fun _ _ never => by cases never) ?_
  intro answer value same
  cases same
  exact holds

theorem recovers_sync {Q : Unit → ArtifactDisk → Prop} (shows : Shows place current disk) (holds : Q () disk) :
    Recovers allowed place current Q syncDisk disk :=
  Process.wp_change shows (fun faulty => ⟨rfl, faulty, shows⟩) ⟨holds, fun faulty => ⟨rfl, faulty, shows⟩⟩

theorem recovers_change {Q : Unit → ArtifactDisk → Prop} {site : ArtifactSite}
    {change : ArtifactAnswer → ArtifactDisk → Except ArtifactError ArtifactDisk} {after : ArtifactDisk}
    (shows : Shows place current disk) (made : ∀ answer, change answer disk = .ok after) (holds : Q () after)
    (kept : Shows place current after) : Recovers allowed place current Q (changeDisk site change) disk := by
  refine Process.wp_step shows (fun faulty => ⟨rfl, faulty, shows⟩) (fun answer error failed => ?_)
    fun answer value t moved => ?_
  · rw [made answer] at failed
    cases failed
  · rw [made answer] at moved
    cases moved
    exact ⟨holds, fun faulty => ⟨rfl, faulty, kept⟩⟩

/-- The disk whose garbage is what is left of one directory. -/
def remnant (output : Option ArtifactDirectory) (paths : List ArtifactEntry) : ArtifactDisk :=
  ⟨output, none, if paths = [] then [] else [paths]⟩

theorem shows_remnant {paths : List ArtifactEntry} (regular : ∀ d, output = some d → d.kind ≠ .file)
    (removable : Removable paths) : Shows place output (remnant output paths) := by
  refine ⟨output, .clean output _ regular ?_ ?_⟩
  · split <;> simp
  · intro other member
    split at member
    · cases member
    · next filled =>
      rw [List.mem_singleton] at member
      exact member ▸ ⟨filled, removable⟩

theorem unlinkGarbage_remnant {paths : List ArtifactEntry} (filled : paths ≠ []) :
    unlinkGarbage (remnant output paths) = .ok (remnant output paths.dropLast) := by
  simp [unlinkGarbage, remnant, filled]

theorem recovers_unlinkAll {β : Type} (items : List β) (paths : List ArtifactEntry)
    (regular : ∀ d, output = some d → d.kind ≠ .file) (removable : Removable paths)
    (same : items.length = paths.length) :
    Recovers allowed place output (fun _ t => t = remnant output [])
      (Process.each items fun _ => changeDisk .unlink fun _ => unlinkGarbage) (remnant output paths) := by
  induction items generalizing paths with
  | nil =>
    rw [List.length_nil, eq_comm, List.length_eq_zero_iff] at same
    exact same ▸ rfl
  | cons item rest ih =>
    have filled : paths ≠ [] := by
      rintro rfl
      cases same
    refine Process.wp_bind.mpr (recovers_change (shows_remnant regular removable)
      (fun _ => unlinkGarbage_remnant filled) ?_ (shows_remnant regular removable.dropLast))
    refine ih paths.dropLast removable.dropLast ?_
    rw [List.length_dropLast, ← same, List.length_cons, Nat.add_sub_cancel]

theorem recovers_removeTree {paths : List ArtifactEntry} (regular : ∀ d, output = some d → d.kind ≠ .file)
    (filled : paths ≠ []) (removable : Removable paths) :
    Recovers allowed place output (fun _ t => t = ⟨output, none, []⟩) removeTree ⟨output, none, [paths]⟩ := by
  have start : (⟨output, none, [paths]⟩ : ArtifactDisk) = remnant output paths := by simp [remnant, filled]
  have shows : Shows place output (remnant output paths) := shows_remnant regular removable
  rw [start]
  have read : cleanupTree ((remnant output paths).garbage.headD []) = .ok (paths.map ArtifactEntry.item) := by
    simpa [remnant, filled] using removable.cleanupTree
  refine Process.wp_bind.mpr (Process.wp_look shows (fun faulty => ⟨rfl, faulty, shows⟩) ?_ ?_)
  · intro answer error failed
    rw [read] at failed
    cases failed
  · intro answer tree found
    rw [read] at found
    cases found
    exact recovers_unlinkAll _ paths regular removable (by simp)

theorem recovers_discard {transaction : ArtifactTransaction} (regular : ∀ d, output = some d → d.kind ≠ .file)
    (shows : Shows place output ⟨output, some transaction, []⟩) (removable : Removable (transaction.paths place)) :
    Recovers allowed place output (fun _ t => t = ⟨output, none, []⟩) (discardTransaction place)
      ⟨output, some transaction, []⟩ := by
  have filled : transaction.paths place ≠ [] := by simp [ArtifactTransaction.paths]
  have after : Shows place output ⟨output, none, [transaction.paths place]⟩ :=
    ⟨output, .clean output _ regular (by simp) (by simpa using ⟨filled, removable⟩)⟩
  refine Process.wp_bind.mpr (recovers_change shows (fun _ => rfl) ?_ after)
  exact Process.wp_bind.mpr (recovers_sync after (recovers_removeTree regular filled removable))

theorem recovers_collectGarbage {Q : Unit → ArtifactDisk → Prop} (shows : Stands place disk previous current)
    (holds : Q () { disk with garbage := [] }) : Recovers allowed place current Q collectGarbage disk := by
  refine Process.wp_bind.mpr (recovers_inspect shows.shows ?_)
  cases shows with
  | clean output garbage regular few tidy =>
    match garbage, few, tidy with
    | [], _, _ => exact holds
    | [paths], _, tidy =>
      obtain ⟨filled, removable⟩ := tidy paths List.mem_cons_self
      refine Process.wp_bind.mpr ((recovers_removeTree regular filled removable).mono (fun _ t same => ?_)
        (fun _ _ held => held) fun _ _ held => held)
      exact same ▸ holds
  | prepared | staged | moved | exchanged | committed => exact holds

theorem small_incomplete {part : Option (Option ArtifactRecord)} {file : RecordFile}
    (small : RecordFile.Small place { part := part }) (entry : ∀ content, file.entry = some content →
      place.recordSize content ≤ 16384) (same : file.part = part) : file.Small place :=
  ⟨entry, fun content found => small.2 content (same ▸ found)⟩

theorem small_journalOf {new : ArtifactDirectory} : (journalOf place previous new).Small place := by
  refine ⟨fun content found => ?_, fun content never => by cases never⟩
  cases found
  exact place.journal_fits _ _

theorem small_marker {next : Nat} : RecordFile.Small place { entry := some (some (.committed next)) } := by
  refine ⟨fun content found => ?_, fun content never => by cases never⟩
  cases found
  exact place.marker_fits next

theorem readRecord_journal {new : ArtifactDirectory} (apart : directoryIdentity previous ≠ some new.stat.identity) :
    (readRecord place (some (.journal place.output (directoryIdentity previous) new.stat.identity)) >>=
      acceptJournal place) = .ok (directoryIdentity previous, new.stat.identity) := by
  have fits := place.journal_fits (directoryIdentity previous) new.stat.identity
  simp [readRecord, Nat.not_lt.mpr fits, acceptJournal, bind, Except.bind, Ne.symm apart]

theorem assertOutputDirectories_ok {directories : List ArtifactDirectory} {mounted : String}
    (plain : ∀ d ∈ directories, d.kind = .directory) :
    (directories.forM fun d => assertOutputDirectory mounted d.kind) = .ok () := by
  induction directories with
  | nil => rfl
  | cons first rest ih =>
    have here : assertOutputDirectory mounted first.kind = .ok () := by
      simp [assertOutputDirectory, plain first List.mem_cons_self]
    show (assertOutputDirectory mounted first.kind >>= fun _ =>
      rest.forM fun d => assertOutputDirectory mounted d.kind) = .ok ()
    rw [here]
    exact ih fun d member => plain d (List.mem_cons_of_mem _ member)

theorem assertDirectories_ok {next : Nat} {saved staged : Option ArtifactDirectory}
    {journaled : Option Nat} (kinds : ∀ d, output = some d ∨ saved = some d ∨ staged = some d → d.kind = .directory)
    (named : saved ≠ none → directoryIdentity saved = journaled)
    (stagedNamed : staged ≠ none → directoryIdentity staged = some next) :
    assertDirectories journaled next output saved staged = .ok () := by
  have plain : ∀ d ∈ output.toList ++ saved.toList ++ staged.toList, d.kind = .directory :=
    fun d member => kinds d (by simpa [or_assoc] using member)
  have savedSame : ¬ (saved ≠ none ∧ directoryIdentity saved ≠ journaled) := fun ⟨there, other⟩ => other (named there)
  have stagedSame : ¬ (staged ≠ none ∧ directoryIdentity staged ≠ some next) :=
    fun ⟨there, other⟩ => other (stagedNamed there)
  unfold assertDirectories
  rw [assertOutputDirectories_ok plain]
  simp only [savedSame, stagedSame, if_false]
  rfl

/-- A directory that is not yet the new one needs no undoing. -/
theorem recovers_undone {Q : Unit → ArtifactDisk → Prop} {journal : Option Nat × Nat}
    {transaction : ArtifactTransaction} {found : Option ArtifactDirectory}
    (other : directoryIdentity found ≠ some journal.2)
    (expected : found = none ∨ (directoryIdentity found = journal.1 ∧ transaction.backup = none)) (holds : Q () disk) :
    Recovers allowed place current Q (undoExchange journal transaction found) disk := by
  unfold undoExchange
  rw [if_neg other]
  exact Process.wp_require.mpr ⟨fun _ => holds, fun never => absurd expected never⟩

/-- The previous directory is where it was, or there was none. -/
theorem recovers_restored {Q : Unit → ArtifactDisk → Prop} {journal : Option Nat × Nat}
    {transaction : ArtifactTransaction} (shows : Shows place current disk)
    (there : ¬ (journal.1 ≠ none ∧ disk.output = none)) (holds : Q () disk) :
    Recovers allowed place current Q (restorePrevious journal transaction) disk := by
  refine Process.wp_bind.mpr (recovers_inspect shows ?_)
  rw [if_neg there]
  exact holds

/-- The previous directory comes back from the backup. -/
theorem recovers_restore {saved new : ArtifactDirectory} {part : Option (Option ArtifactRecord)}
    {transaction : ArtifactTransaction} {Q : Unit → ArtifactDisk → Prop}
    (apart : saved.stat.identity ≠ new.stat.identity) (fits : Fits (some new) (some saved))
    (small : RecordFile.Small place { part := part }) (backup : transaction.backup = some saved)
    (holds : Q () ⟨some saved, some
      { stage := some new, journal := journalOf place (some saved) new, committed := { part := part } }, []⟩) :
    Recovers allowed place (some saved) Q
      (restorePrevious (directoryIdentity (some saved), new.stat.identity) transaction)
      ⟨none, some
        { stage := some new
          backup := some saved
          journal := journalOf place (some saved) new
          committed := { part := part } }, []⟩ := by
  have before : Shows place (some saved) _ := (Stands.moved saved new part apart fits small).shows
  have after : Shows place (some saved) ⟨some saved, some
      { stage := some new, journal := journalOf place (some saved) new, committed := { part := part } }, []⟩ :=
    (Stands.staged (some saved) new part
      (fun d same => (fits.backup_sound d same).kind)
      (fun same => apart (Option.some.inj same)) fits.withoutBackup small).shows
  refine Process.wp_bind.mpr (recovers_inspect before ?_)
  rw [if_pos ⟨by simp [directoryIdentity], rfl⟩]
  refine Process.wp_bind.mpr (Process.wp_require.mpr ⟨fun _ => ?_, fun never => absurd (by simp [backup]) never⟩)
  exact Process.wp_bind.mpr (recovers_change before (fun _ => rfl) (recovers_sync after holds) after)

/-- From a stage with its journal, the transaction is discarded. -/
theorem recovers_staged {new : ArtifactDirectory} {part : Option (Option ArtifactRecord)}
    (directory : ∀ d, previous = some d → d.kind = .directory)
    (apart : directoryIdentity previous ≠ some new.stat.identity) (fits : Fits (some new) none)
    (small : RecordFile.Small place { part := part }) :
    Recovers allowed place previous (fun _ t => t = ⟨previous, none, []⟩) (discardTransaction place)
      ⟨previous, some
        { stage := some new, journal := journalOf place previous new, committed := { part := part } }, []⟩ := by
  refine recovers_discard (fun d same => by simp [directory d same])
    (Stands.staged previous new part directory apart fits small).shows ?_
  exact fits.removable small_journalOf (small_incomplete small (fun _ never => by cases never) rfl)

/-- What is behind a journal of this client, before the commit marker. -/
theorem recovers_uncommitted {Q : Unit → ArtifactDisk → Prop} {new : ArtifactDirectory}
    {transaction : ArtifactTransaction} {part : Option (Option ArtifactRecord)} {found : Option ArtifactDirectory}
    (shows : Shows place previous ⟨found, some transaction, []⟩)
    (apart : directoryIdentity previous ≠ some new.stat.identity)
    (kinds : ∀ d, found = some d ∨ transaction.backup = some d ∨ transaction.stage = some d → d.kind = .directory)
    (saved : transaction.backup ≠ none → transaction.backup = previous)
    (staged : transaction.stage ≠ none → transaction.stage = some new)
    (unmarked : transaction.committed = { part := part })
    (holds : Recovers allowed place previous Q (do
      undoExchange (directoryIdentity previous, new.stat.identity) transaction found
      restorePrevious (directoryIdentity previous, new.stat.identity) transaction
      discardTransaction place) ⟨found, some transaction, []⟩) :
    Recovers allowed place previous Q (recoverJournaled place transaction
      (some (.journal place.output (directoryIdentity previous) new.stat.identity)))
      ⟨found, some transaction, []⟩ := by
  unfold recoverJournaled
  rw [readRecord_journal apart]
  refine Process.wp_bind.mpr (Process.wp_ofExcept.mpr ⟨fun value same => ?_, fun error never => by cases never⟩)
  cases same
  refine Process.wp_bind.mpr (recovers_inspect shows ?_)
  have directories : assertDirectories (directoryIdentity previous) new.stat.identity found transaction.backup
      transaction.stage = .ok () :=
    assertDirectories_ok kinds (fun there => by rw [saved there]) fun there => by rw [staged there]; rfl
  simp only [directories]
  refine Process.wp_bind.mpr (Process.wp_ofExcept.mpr ⟨fun value _ => ?_, fun error never => by cases never⟩)
  have none : ¬ transaction.committed.entry ≠ none := by simp [unmarked]
  rw [if_neg none]
  exact holds

theorem recovers_transaction {Q : Unit → ArtifactDisk → Prop} {transaction : ArtifactTransaction}
    (kind : transaction.kind = .directory) (known : transaction.others = [])
    (holds : Recovers allowed place current Q (transaction.journal.entry.elim
      (do
        Process.require (transaction.backup = none ∧ transaction.committed = {})
          (.unsafeTransaction "Artifact recovery journal is missing; previous output was preserved")
        discardTransaction place)
      (recoverJournaled place transaction)) disk) :
    Recovers allowed place current Q (recoverTransaction place transaction) disk := by
  have plain : assertOutputDirectory "Artifact transaction is on another filesystem" transaction.kind = .ok () := by
    simp [assertOutputDirectory, kind]
  unfold recoverTransaction
  rw [plain]
  refine Process.wp_bind.mpr (Process.wp_ofExcept.mpr ⟨fun value _ => ?_, fun error never => by cases never⟩)
  exact Process.wp_bind.mpr (Process.wp_require.mpr ⟨fun _ => holds, fun never => absurd known never⟩)

/-- What is exchanged before the commit goes back, and the previous directory stands again. -/
theorem recovers_exchanged {new : ArtifactDirectory} {part : Option (Option ArtifactRecord)}
    (apart : directoryIdentity previous ≠ some new.stat.identity) (fits : Fits (some new) previous)
    (small : RecordFile.Small place { part := part }) :
    Recovers allowed place previous (fun _ t => t = ⟨previous, none, []⟩) (do
      undoExchange (directoryIdentity previous, new.stat.identity)
        { backup := previous, journal := journalOf place previous new, committed := { part := part } } (some new)
      restorePrevious (directoryIdentity previous, new.stat.identity)
        { backup := previous, journal := journalOf place previous new, committed := { part := part } }
      discardTransaction place)
      ⟨some new,
        some { backup := previous, journal := journalOf place previous new, committed := { part := part } }, []⟩ := by
  have shows : Shows place previous _ := (Stands.exchanged previous new part apart fits small).shows
  have back : Shows place previous ⟨none, some
      { stage := some new
        backup := previous
        journal := journalOf place previous new
        committed := { part := part } }, []⟩ := by
    cases previous with
    | none => exact (Stands.staged none new part (fun d never => by cases never) apart fits small).shows
    | some saved =>
      exact (Stands.moved saved new part (fun same => apart (congrArg some same)) fits small).shows
  refine Process.wp_bind.mpr ?_
  have there : directoryIdentity (some new) = some (directoryIdentity previous, new.stat.identity).2 := rfl
  unfold undoExchange
  rw [if_pos there]
  refine Process.wp_bind.mpr (Process.wp_require.mpr ⟨fun _ => ?_, fun never => absurd ⟨rfl, fun there missing =>
    there (by simp [show previous = none from missing, directoryIdentity])⟩ never⟩)
  refine Process.wp_bind.mpr (recovers_change shows (fun _ => rfl) (recovers_sync back ?_) back)
  cases previous with
  | none =>
    refine Process.wp_bind.mpr (recovers_restored back (fun there => there.1 rfl) ?_)
    exact recovers_staged (fun d never => by cases never) apart fits small
  | some saved =>
    have identities : saved.stat.identity ≠ new.stat.identity := fun same => apart (congrArg some same)
    refine Process.wp_bind.mpr (recovers_restore identities fits small rfl ?_)
    exact recovers_staged (fun d same => (fits.backup_sound d same).kind) apart fits.withoutBackup small

/-- The recovery brings back the set that counts. -/
theorem recovers_recover (stands : Stands place disk previous current) :
    Recovers allowed place current (fun _ t => t = ⟨current, none, []⟩) (recover place) disk := by
  refine Process.wp_bind.mpr (recovers_collectGarbage stands ?_)
  cases stands with
  | clean _ garbage regular few tidy =>
    exact Process.wp_bind.mpr (recovers_inspect (Stands.clean _ [] regular (by simp) (by simp)).shows rfl)
  | prepared _ stage part regular fits small =>
    have shows : Shows place _ _ := (Stands.prepared _ stage part regular fits small).shows
    refine Process.wp_bind.mpr (recovers_inspect shows (recovers_transaction rfl rfl ?_))
    refine Process.wp_bind.mpr (Process.wp_require.mpr ⟨fun _ => ?_, fun never => absurd ⟨rfl, rfl⟩ never⟩)
    exact recovers_discard regular shows (fits.removable small ⟨fun _ never => (by cases never),
      fun _ never => by cases never⟩)
  | staged previous new part directory apart fits small =>
    have shows : Shows place previous _ := (Stands.staged previous new part directory apart fits small).shows
    refine Process.wp_bind.mpr (recovers_inspect shows (recovers_transaction rfl rfl ?_))
    refine recovers_uncommitted shows apart ?_ (fun never => absurd rfl never) (fun _ => rfl) rfl ?_
    · rintro d (same | never | same)
      · exact directory d same
      · cases never
      · exact (fits.stage_sound d same).kind
    refine Process.wp_bind.mpr (recovers_undone apart (by simp) ?_)
    refine Process.wp_bind.mpr (recovers_restored shows (fun ⟨there, missing⟩ => ?_)
      (recovers_staged directory apart fits small))
    exact there (by rw [show previous = none from missing]; rfl)
  | moved saved new part apart fits small =>
    have shows : Shows place (some saved) _ := (Stands.moved saved new part apart fits small).shows
    have identities : directoryIdentity (some saved) ≠ some new.stat.identity :=
      fun same => apart (Option.some.inj same)
    refine Process.wp_bind.mpr (recovers_inspect shows (recovers_transaction rfl rfl ?_))
    refine recovers_uncommitted shows identities ?_ (fun _ => rfl) (fun _ => rfl) rfl ?_
    · rintro d (never | same | same)
      · cases never
      · exact (fits.backup_sound d same).kind
      · exact (fits.stage_sound d same).kind
    refine Process.wp_bind.mpr (recovers_undone (by simp [directoryIdentity]) (.inl rfl) ?_)
    refine Process.wp_bind.mpr (recovers_restore apart fits small rfl ?_)
    exact recovers_staged (fun d same => (fits.backup_sound d same).kind) identities fits.withoutBackup small
  | exchanged previous new part apart fits small =>
    have shows : Shows place previous _ := (Stands.exchanged previous new part apart fits small).shows
    refine Process.wp_bind.mpr (recovers_inspect shows (recovers_transaction rfl rfl ?_))
    refine recovers_uncommitted shows apart ?_ (fun _ => rfl) (fun never => absurd rfl never) rfl
      (recovers_exchanged apart fits small)
    rintro d (same | same | never)
    · exact (fits.stage_sound d same).kind
    · exact (fits.backup_sound d same).kind
    · cases never
  | committed previous new apart fits =>
    have shows : Shows place (some new) _ := (Stands.committed previous new apart fits).shows
    have marker := place.marker_fits new.stat.identity
    refine Process.wp_bind.mpr (recovers_inspect shows (recovers_transaction rfl rfl ?_))
    show Recovers allowed place (some new) _ (recoverJournaled place _
      (some (.journal place.output (directoryIdentity previous) new.stat.identity))) _
    unfold recoverJournaled
    rw [readRecord_journal apart]
    refine Process.wp_bind.mpr (Process.wp_ofExcept.mpr ⟨fun value same => ?_, fun error never => by cases never⟩)
    cases same
    refine Process.wp_bind.mpr (recovers_inspect shows ?_)
    have directories : assertDirectories (directoryIdentity previous) new.stat.identity (some new) previous none =
        .ok () := by
      refine assertDirectories_ok ?_ (fun _ => rfl) fun never => absurd rfl never
      rintro d (same | same | never)
      · exact (fits.stage_sound d same).kind
      · exact (fits.backup_sound d same).kind
      · cases never
    simp only [directories]
    refine Process.wp_bind.mpr (Process.wp_ofExcept.mpr ⟨fun value _ => ?_, fun error never => by cases never⟩)
    rw [if_pos (by simp)]
    refine Process.wp_bind.mpr (Process.wp_ofExcept.mpr ⟨fun committed read => ?_, fun error failed => ?_⟩)
    · simp only [readRecord, Option.getD_some, if_neg (Nat.not_lt.mpr marker), Option.elim_some,
        Except.ok.injEq] at read
      refine Process.wp_bind.mpr (Process.wp_require.mpr ⟨fun _ => ?_, fun never => absurd ⟨read.symm, rfl, trivial⟩ never⟩)
      exact recovers_discard (fun d same => by simp [(fits.stage_sound d same).kind]) shows
        (fits.withoutStage.removable small_journalOf small_marker)
    · simp [readRecord, Nat.not_lt.mpr marker] at failed

theorem recover_completes (stands : Stands place disk previous current) :
    (recover place).Completes (fun _ t => t = ⟨current, none, []⟩) disk :=
  .of_faulty (recovers_recover stands) fun _ _ blamed => Process.not_faulty_noFailure blamed.2.1

end Recovery

end LatexRenderer.ArtifactPublication
