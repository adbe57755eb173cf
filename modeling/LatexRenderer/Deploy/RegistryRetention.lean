import LatexRenderer.Deploy.RegistryRules

/-! # What a retention run deletes

Whatever the registry answers and others do to it, a version is only requested to be deleted when no rule keeps it and
nothing that is kept reaches it through the manifests that the registry answered, and when the list that was just read is that of the plan but for versions that the run
has found absent. Every week with a dated version that is old enough keeps one.
-/

namespace LatexRenderer

open Machine
open Machine.Process

variable {s t : RegistryState} {plan : RegistryPlan}

section Lists

variable {all : List PackageVersion} {batch : List (Option PackageVersion)}

theorem addBatch_nodup {found : List PackageVersion} (success : addBatch batch all = .ok found)
    (distinct : (all.map PackageVersion.id).Nodup) : (found.map PackageVersion.id).Nodup := by
  induction batch generalizing all with
  | nil =>
    cases success
    exact distinct
  | cons first rest ih =>
    cases first with
    | none => cases success
    | some version =>
      obtain ⟨-, success⟩ := demand_bind_eq_ok.mp success
      obtain ⟨fresh, success⟩ := demand_bind_eq_ok.mp success
      refine ih success ?_
      rw [List.map_append]
      refine List.nodup_append.mpr ⟨distinct, List.nodup_singleton _, ?_⟩
      rintro first earlier second last rfl
      exact fresh (List.mem_singleton.mp last ▸ earlier)

theorem addBatch_ne_exhausted (batch : List (Option PackageVersion)) (all : List PackageVersion) :
    Fails (· ≠ .exhausted) (addBatch batch all) := by
  induction batch generalizing all with
  | nil => exact fails_ok all
  | cons first rest ih =>
    cases first with
    | none =>
      rintro _ ⟨⟩
      decide
    | some version =>
      exact .bind (fails_demand (by decide)) fun _ _ => .bind (fails_demand (by decide)) fun _ _ => ih _

/-- What ends a run early is no lack of turns, and leaves the state. -/
def Undone (s : RegistryState) (error : RegistryError) (t : RegistryState) : Prop := t = s ∧ error ≠ .exhausted

theorem versionPages_ends (pages : Nat) (distinct : (all.map PackageVersion.id).Nodup) :
    Ends (versionPages pages all) (fun found t => t = s ∧ (found.map PackageVersion.id).Nodup) (Undone s) s := by
  induction pages generalizing all with
  | zero => exact ends_throw ⟨rfl, by decide⟩
  | succ pages ih =>
    refine .bind (ends_ask ⟨rfl, by decide⟩ (fun _ _ never => by cases never) fun answer batch read => ?_)
    refine .bind (ends_ofExcept (fun found success => ?_) fun error failed => ⟨rfl, addBatch_ne_exhausted _ _ error failed⟩)
    have nodup := addBatch_nodup success distinct
    split
    · exact ends_pure ⟨rfl, nodup⟩
    · exact ih nodup

/-- A list has every version once, and reading it changes nothing. -/
theorem versions_ends : Ends versions (fun found t => t = s ∧ (found.map PackageVersion.id).Nodup) (Undone s) s :=
  versionPages_ends 100 List.nodup_nil

end Lists

section Deletions

/-- The list that was read is that of the plan, but for what is accounted for. -/
structure SameInventory (plan : RegistryPlan) (current : List PackageVersion) (accountedAbsent : List Absence) : Prop where
  unchanged : ∀ item ∈ current, ∃ prior ∈ plan.list, prior.id = item.id ∧ fingerprint prior = fingerprint item
  complete : ∀ prior ∈ plan.list, prior.id ∈ accountedAbsent.map Prod.fst ∨ prior.id ∈ current.map PackageVersion.id

/-- What is accounted for came earlier in the plan and was absent from a list that was read. -/
def Accounted (earlier : List (PackageVersion × CandidateKind)) (accountedAbsent : List Absence) : Prop :=
  ∀ absence ∈ accountedAbsent, absence.1 ∈ earlier.map (fun candidate => candidate.1.id) ∧
    absence.1 ∉ absence.2.map PackageVersion.id

/-- A request is for a planned version that is as it was planned, and the list is that of the plan. -/
structure RequestSound (plan : RegistryPlan) (request : DeleteRequest) : Prop where
  turn : ∃ earlier kind later, plan.planned = earlier ++ (request.version, kind) :: later ∧
    Accounted earlier request.accountedAbsent
  present : ∃ live ∈ request.current, live.id = request.version.id ∧ fingerprint live = fingerprint request.version
  inventory : SameInventory plan request.current request.accountedAbsent

/-- Some planned versions have had their turn. -/
structure DeletionSound (plan : RegistryPlan) (earlier : List (PackageVersion × CandidateKind)) (s : RegistryState) :
    Prop where
  recorded : s.plan = some plan
  baseline : s.inventoryBaseline = plan.list.map fun version => (version.id, fingerprint version)
  accounted : Accounted earlier s.accountedAbsent
  requests : ∀ request ∈ s.requests, RequestSound plan request

/-- What holds of the requests however a run ends. -/
structure RequestsSound (plan : RegistryPlan) (s : RegistryState) : Prop where
  recorded : s.plan = some plan
  requests : ∀ request ∈ s.requests, RequestSound plan request

variable {earlier : List (PackageVersion × CandidateKind)} {candidate : PackageVersion × CandidateKind}

theorem DeletionSound.all (sound : DeletionSound plan earlier s) : RequestsSound plan s := ⟨sound.recorded, sound.requests⟩

/-- What is accounted for stays so when later turns have come. -/
theorem Accounted.mono {accountedAbsent : List Absence} (accounted : Accounted earlier accountedAbsent) :
    Accounted (earlier ++ [candidate]) accountedAbsent := by
  intro absence member
  obtain ⟨before, gone⟩ := accounted absence member
  refine ⟨?_, gone⟩
  rw [List.map_append]
  exact List.mem_append_left _ before

/-- The version whose turn it is is found absent. -/
theorem DeletionSound.absent {current : List PackageVersion} (sound : DeletionSound plan (earlier ++ [candidate]) s)
    (gone : candidate.1.id ∉ current.map PackageVersion.id) : DeletionSound plan (earlier ++ [candidate])
      { s with accountedAbsent := s.accountedAbsent ++ [(candidate.1.id, current)] } where
  recorded := sound.recorded
  baseline := sound.baseline
  accounted absence member := by
    rcases List.mem_append.mp member with before | last
    · exact sound.accounted absence before
    · obtain rfl := List.mem_singleton.mp last
      exact ⟨by simp, gone⟩
  requests := sound.requests

theorem sameInventory_sound {current : List PackageVersion} (sound : DeletionSound plan earlier s)
    (same : sameInventory current s = true) : SameInventory plan current s.accountedAbsent := by
  rw [sameInventory, Bool.and_eq_true, List.all_eq_true, List.all_eq_true, sound.baseline] at same
  constructor
  · intro item member
    have found := eq_of_beq (same.1 item member)
    obtain ⟨prior, there, equal⟩ := List.mem_map.mp (List.mem_of_find?_eq_some found)
    exact ⟨prior, there, congrArg Prod.fst equal, congrArg Prod.snd equal⟩
  · intro prior member
    have either := same.2 _ (List.mem_map_of_mem member)
    rw [Bool.or_eq_true, List.contains_iff_mem, List.any_eq_true] at either
    refine either.imp_right ?_
    rintro ⟨item, there, equal⟩
    exact List.mem_map.mpr ⟨item, there, eq_of_beq equal⟩

theorem DeletionSound.next (sound : DeletionSound plan earlier s) : DeletionSound plan (earlier ++ [candidate]) s where
  recorded := sound.recorded
  baseline := sound.baseline
  accounted := sound.accounted.mono
  requests := sound.requests

/-- What holds when the deletions stop with an error. -/
def StoppedSound (plan : RegistryPlan) (error : RegistryError) (t : RegistryState) : Prop :=
  RequestsSound plan t ∧ error ≠ .exhausted

/-- A list that cannot be read leaves what there was. -/
theorem DeletionSound.stopped {error : RegistryError} (sound : DeletionSound plan earlier s) (undone : Undone s error t) :
    StoppedSound plan error t := by
  obtain ⟨rfl, other⟩ := undone
  exact ⟨sound.all, other⟩

theorem confirmDeletion_ends {status : Option Nat} (attempts : Nat) (sound : DeletionSound plan (earlier ++ [candidate]) s) :
    Ends (confirmDeletion candidate.1 status attempts) (fun _ => DeletionSound plan (earlier ++ [candidate]))
      (StoppedSound plan) s := by
  induction attempts with
  | zero => exact ends_throw ⟨sound.all, by decide⟩
  | succ attempts ih =>
    refine .bind (versions_ends.mono ?_ fun error t => sound.stopped)
    rintro active t ⟨rfl, -⟩
    split
    · exact ih
    · next gone => exact .bind (ends_mark (ends_pure (sound.absent gone)))

theorem DeletionSound.request {later : List (PackageVersion × CandidateKind)} {current : List PackageVersion}
    {live : PackageVersion} (sound : DeletionSound plan earlier s) (turn : plan.planned = earlier ++ candidate :: later)
    (found : current.find? (fun item => item.id == candidate.1.id) = some live)
    (unchanged : fingerprint live = fingerprint candidate.1) (same : sameInventory current s = true) :
    DeletionSound plan (earlier ++ [candidate])
      { s with requests := s.requests ++ [⟨candidate.1, current, s.accountedAbsent⟩] } where
  recorded := sound.recorded
  baseline := sound.baseline
  accounted := sound.accounted.mono
  requests request member := by
    rcases List.mem_append.mp member with before | last
    · exact sound.requests request before
    · obtain rfl := List.mem_singleton.mp last
      have own := List.find?_some found
      constructor
      · exact ⟨earlier, candidate.2, later, turn, sound.accounted⟩
      · exact ⟨live, List.mem_of_find?_eq_some found, eq_of_beq own, unchanged⟩
      · exact sameInventory_sound sound same

theorem deleteVersion_ends {later : List (PackageVersion × CandidateKind)} (sound : DeletionSound plan earlier s)
    (turn : plan.planned = earlier ++ candidate :: later) :
    Ends (deleteVersion candidate.1) (fun _ => DeletionSound plan (earlier ++ [candidate])) (StoppedSound plan) s := by
  refine .bind (versions_ends.mono ?_ fun error t => sound.stopped)
  rintro current t ⟨rfl, -⟩
  split
  · next missing =>
    refine .bind (ends_mark (ends_pure (sound.next.absent fun there => ?_)))
    obtain ⟨item, listed, same⟩ := List.mem_map.mp there
    exact absurd (beq_iff_eq.mpr same) (List.find?_eq_none.mp missing item listed)
  · next live found =>
    refine .bind (ends_require (fun unchanged => ?_) ⟨sound.all, by decide⟩)
    refine .bind (ends_view (.bind (ends_require (fun same => ?_) ⟨sound.all, by decide⟩)))
    have requested := sound.request turn found unchanged same
    refine .bind (ends_mark (.bind (ends_ask ⟨requested.all, by decide⟩ (fun _ _ never => by cases never) ?_)))
    intro answer status read
    exact .bind (ends_require (fun _ => confirmDeletion_ends 3 requested) ⟨requested.all, by decide⟩)

/-- Every deletion that is planned has its turn. -/
theorem deletePlanned_ends {rest : List (PackageVersion × CandidateKind)} (sound : DeletionSound plan earlier s)
    (turns : plan.planned = earlier ++ rest) :
    Ends (deletePlanned rest) (fun _ => RequestsSound plan) (StoppedSound plan) s := by
  induction rest generalizing earlier s with
  | nil => exact ends_pure sound.all
  | cons candidate rest ih =>
    refine .bind ((deleteVersion_ends sound turns).mono (fun removed t deleted => ?_) fun _ _ stopped => stopped)
    refine .bind ((ih deleted (by rw [turns, List.append_assoc]; rfl)).mono (fun _ _ held => ?_) fun _ _ stopped => stopped)
    exact ends_pure held

end Deletions

section Promotion

variable {run : RegistryRetention} {list again found : List PackageVersion} {choice : Text × DatedVersion} {choices : List (Text × DatedVersion)}

theorem weeklyTag_undated {tag week : Text} (dated : (parseDateTag tag).isSome = true) : tag ≠ weeklyTag week := by
  rintro rfl
  obtain ⟨date, parsed⟩ := Option.isSome_iff_exists.mp dated
  have digit := isDigit_of_date parsed
  exact absurd (digit 'w' rfl) (by decide)

/-- The versions are those of an earlier list, and their dated tags are still there. -/
structure Promoted (list found : List PackageVersion) : Prop where
  ids : found.map PackageVersion.id = list.map PackageVersion.id
  dated : ∀ version ∈ list, ∃ after ∈ found, after.id = version.id ∧
    ∀ tag ∈ version.tags, (parseDateTag tag).isSome = true → tag ∈ after.tags

theorem Promoted.refl (list : List PackageVersion) : Promoted list list :=
  ⟨rfl, fun version member => ⟨version, member, rfl, fun _ tagged _ => tagged⟩⟩

theorem Promoted.trans (first : Promoted list again) (second : Promoted again found) : Promoted list found where
  ids := second.ids.trans first.ids
  dated version member := by
    obtain ⟨between, listed, same, kept⟩ := first.dated version member
    obtain ⟨after, there, equal, still⟩ := second.dated between listed
    exact ⟨after, there, equal.trans same, fun tag tagged dated => still tag (kept tag tagged dated) dated⟩

/-- The dated tag of a choice is on its version. -/
def OnVersion (list : List PackageVersion) (item : DatedVersion) : Prop :=
  ∃ version ∈ list, version.id = item.versionId ∧ item.tag ∈ version.tags

theorem OnVersion.promoted {item : DatedVersion} (there : OnVersion list item) (promoted : Promoted list found)
    (dated : (parseDateTag item.tag).isSome = true) : OnVersion found item := by
  obtain ⟨version, listed, same, tagged⟩ := there
  obtain ⟨after, member, equal, kept⟩ := promoted.dated version listed
  exact ⟨after, member, equal.trans same, kept _ tagged dated⟩

theorem verifyWeekly_eq_ok (success : verifyWeekly run list choice = .ok found) :
    Promoted list found ∧ OnVersion list choice.2 := by
  obtain ⟨selected, got, success⟩ := bind_eq_ok.mp success
  obtain ⟨tagged, success⟩ := demand_bind_eq_ok.mp success
  have present := obtain?_eq_ok.mp got
  have own := List.find?_some present
  refine ⟨?_, selected, List.mem_of_find?_eq_some present, eq_of_beq own, tagged⟩
  split at success
  · cases success
    constructor
    · simp
    · intro version member
      refine ⟨_, List.mem_map_of_mem member, rfl, fun tag tagged dated => List.mem_append_left _ ?_⟩
      exact List.mem_filter.mpr ⟨tagged, decide_eq_true (weeklyTag_undated dated)⟩
  · obtain ⟨-, success⟩ := demand_bind_eq_ok.mp success
    cases success
    exact .refl _

/-- Every choice is still on its version when all are verified. -/
theorem verifyWeeklies_eq_ok (success : verifyWeeklies run choices list = .ok found)
    (dated : ∀ choice ∈ choices, (parseDateTag choice.2.tag).isSome = true) :
    Promoted list found ∧ ∀ choice ∈ choices, OnVersion found choice.2 := by
  induction choices generalizing list with
  | nil =>
    cases success
    exact ⟨.refl _, by simp⟩
  | cons choice rest ih =>
    obtain ⟨between, step, success⟩ := bind_eq_ok.mp success
    obtain ⟨first, there⟩ := verifyWeekly_eq_ok step
    obtain ⟨second, others⟩ := ih success fun other member => dated other (List.mem_cons_of_mem _ member)
    have whole := first.trans second
    exact ⟨whole, List.forall_mem_cons.mpr ⟨there.promoted whole (dated choice List.mem_cons_self), others⟩⟩

theorem verifyWeekly_ne_exhausted (list : List PackageVersion) (choice : Text × DatedVersion) :
    Fails (· ≠ .exhausted) (verifyWeekly run list choice) := by
  refine .bind (fails_obtain? (by decide)) fun selected _ => .bind (fails_demand (by decide)) fun _ _ => ?_
  split
  · exact fails_ok _
  · exact .bind (fails_demand (by decide)) fun _ _ => fails_ok list

theorem verifyWeeklies_ne_exhausted (choices : List (Text × DatedVersion)) (list : List PackageVersion) :
    Fails (· ≠ .exhausted) (verifyWeeklies run choices list) := by
  induction choices generalizing list with
  | nil => exact fails_ok list
  | cons choice rest ih => exact .bind (verifyWeekly_ne_exhausted list choice) fun between _ => ih between

end Promotion

section Plans

variable {run : RegistryRetention} {references : List (Text × List Text)} {list before : List PackageVersion}
  {candidates : List (PackageVersion × CandidateKind)} {protectedNames : List Text}

/-- The digests of a manifest: its index entries and its subject. -/
def RegistryManifest.descriptors (manifest : RegistryManifest) : List Text :=
  manifest.manifests.getD [] ++ manifest.subject.toList

/-- What manifests refer to. -/
def descriptorsOf (manifests : List (Text × RegistryManifest)) : List (Text × List Text) :=
  manifests.map fun entry => (entry.1, entry.2.descriptors)

/-- A version refers to an index entry or the subject of its manifest. -/
def Refers (manifests : List (Text × RegistryManifest)) (first second : Text) : Prop :=
  ∃ manifest, mapGet? first manifests = some manifest ∧
    (second ∈ manifest.manifests.getD [] ∨ manifest.subject = some second)

theorem refersTo_descriptorsOf {manifests : List (Text × RegistryManifest)} {first second : Text} :
    RefersTo (descriptorsOf manifests) first second ↔ Refers manifests first second := by
  unfold RefersTo referencesOf descriptorsOf Refers
  rw [mapGet?_map]
  cases mapGet? first manifests with
  | none => simp
  | some manifest => simp [RegistryManifest.descriptors]

/-- The chains of the references are those of the manifests. -/
theorem reaches_descriptorsOf {manifests : List (Text × RegistryManifest)} {first second : Text} :
    Reaches (descriptorsOf manifests) first second ↔ Relation.ReflTransGen (Refers manifests) first second := by
  have same : RefersTo (descriptorsOf manifests) = Refers manifests := by
    funext first second
    exact propext refersTo_descriptorsOf
  rw [Reaches, same]

theorem manifestReferences_eq_ok {manifest : RegistryManifest} {descriptors : List Text}
    (success : manifestReferences manifest = .ok descriptors) : descriptors = manifest.descriptors := by
  obtain ⟨-, success⟩ := demand_bind_eq_ok.mp success
  obtain ⟨-, success⟩ := demand_bind_eq_ok.mp success
  cases success
  rfl

theorem manifestReferences_ne_exhausted (manifest : RegistryManifest) :
    Fails (· ≠ .exhausted) (manifestReferences manifest) :=
  .bind (fails_demand (by decide)) fun _ _ => .bind (fails_demand (by decide)) fun _ _ => fails_ok _

/-- Manifests were read, and nothing else has changed. -/
def ManifestsRead (s t : RegistryState) : Prop := t = { s with manifests := t.manifests }

theorem ManifestsRead.trans {u : RegistryState} (first : ManifestsRead s t) (second : ManifestsRead t u) : ManifestsRead s u := by
  unfold ManifestsRead at *
  rw [second, first]

/-- What ends the reading of manifests early is no lack of turns. -/
def UnreadManifests (s : RegistryState) (error : RegistryError) (t : RegistryState) : Prop := ManifestsRead s t ∧ error ≠ .exhausted

/-- A manifest that is read is kept under its version's name. -/
theorem readManifest_ends (name : Text) :
    Ends (readManifest name) (fun manifest t => t = { s with manifests := mapSet name manifest s.manifests })
      (UnreadManifests s) s := by
  refine ends_act ⟨rfl, by decide⟩ (fun answer error failed => ⟨rfl, ?_⟩) fun answer manifest t moved => ?_
  · exact (Fails.bind (P := (· ≠ .exhausted)) (fails_obtain? (by decide)) fun _ _ => fails_ok _) error failed
  · obtain ⟨read, got, moved⟩ := bind_eq_ok.mp moved
    cases moved
    exact ⟨rfl, rfl, by decide⟩

/-- Every manifest of the list is read, and the references are what the manifests tell. -/
theorem readReferences_ends (rest : List PackageVersion) :
    Ends (readReferences rest (descriptorsOf s.manifests)) (fun found t => ManifestsRead s t ∧ found = descriptorsOf t.manifests ∧
      (∀ name ∈ s.manifests.map Prod.fst, name ∈ t.manifests.map Prod.fst) ∧
      ∀ version ∈ rest, version.name ∈ t.manifests.map Prod.fst) (UnreadManifests s) s := by
  induction rest generalizing s with
  | nil => exact ends_pure ⟨rfl, rfl, fun _ member => member, by simp⟩
  | cons version rest ih =>
    refine .bind ((readManifest_ends version.name).mono ?_ fun _ _ undone => undone)
    rintro manifest t rfl
    refine .bind (ends_ofExcept (fun descriptors success => ?_) fun error failed => ⟨rfl, ?_⟩)
    · have told : mapSet version.name descriptors (descriptorsOf s.manifests) =
          descriptorsOf (mapSet version.name manifest s.manifests) := by
        rw [manifestReferences_eq_ok success]
        exact mapSet_map RegistryManifest.descriptors version.name manifest s.manifests
      rw [told]
      have kept : ManifestsRead s { s with manifests := mapSet version.name manifest s.manifests } := rfl
      refine (ih (s := { s with manifests := mapSet version.name manifest s.manifests })).mono ?_
        fun error t undone => ⟨kept.trans undone.1, undone.2⟩
      rintro found t ⟨read, same, before, all⟩
      refine ⟨kept.trans read, same, fun name member => before name ?_,
        List.forall_mem_cons.mpr ⟨before _ ?_, all⟩⟩
      · show name ∈ (mapSet version.name manifest s.manifests).map Prod.fst
        rw [keys_mapSet]
        split
        · exact member
        · exact List.mem_append_left _ member
      · exact List.mem_map_of_mem mem_mapSet_self
    · exact manifestReferences_ne_exhausted manifest error failed

theorem inspectManifests_ends {list : List PackageVersion} : Ends (inspectManifests list candidates) (fun found t =>
    ManifestsRead .start t ∧ found = descriptorsOf t.manifests ∧
      (candidates ≠ [] → ∀ version ∈ list, version.name ∈ t.manifests.map Prod.fst)) (UnreadManifests .start) .start := by
  unfold inspectManifests
  split
  · next none => exact ends_pure ⟨rfl, rfl, fun some => absurd none some⟩
  · refine (readReferences_ends (s := .start) list).mono ?_ fun _ _ undone => undone
    rintro found t ⟨read, same, -, all⟩
    exact ⟨read, same, fun _ => all⟩

/-- The plan of a run leaves what the rules keep, with all that the manifests of the registry reach from it, and a version of
every week. -/
structure PlanSound (run : RegistryRetention) (plan : RegistryPlan) : Prop where
  choices : plan.weeklyChoices = chooseWeekly run (datedVersions plan.before)
  inspected : plan.planned ≠ [] → ∀ version ∈ plan.list, ∃ manifest, mapGet? version.name plan.manifests = some manifest ∧
    mapGet? version.name plan.references = some (manifest.manifests.getD [] ++ manifest.subject.toList)
  listed : ∀ candidate ∈ plan.planned, candidate.1 ∈ plan.list
  unreached : ∀ candidate ∈ plan.planned, ∀ version ∈ plan.list, Kept run plan.weeklyChoices version →
    ¬ Relation.ReflTransGen (Refers plan.manifests) version.name candidate.1.name
  weekly : ∀ item ∈ datedVersions plan.before, WeeklyAge run item.date → ∃ choice ∈ datedVersions plan.before,
    isoWeek choice.date = isoWeek item.date ∧ WeeklyAge run choice.date ∧ OnVersion plan.list choice ∧
      ∀ candidate ∈ plan.planned, candidate.1.id ≠ choice.versionId

theorem mem_candidateVersions {selectedDates : List Text} {candidate : PackageVersion × CandidateKind} :
    candidate ∈ candidateVersions run selectedDates list ↔
      candidate.1 ∈ list ∧ candidateKind run selectedDates candidate.1 = some candidate.2 := by
  rw [candidateVersions, List.mem_filterMap]
  constructor
  · rintro ⟨version, member, mapped⟩
    obtain ⟨kind, same, rfl⟩ := Option.map_eq_some_iff.mp mapped
    exact ⟨member, same⟩
  · rintro ⟨member, same⟩
    exact ⟨candidate.1, member, by rw [same]; rfl⟩

theorem mem_plannedVersions {candidate : PackageVersion × CandidateKind} :
    candidate ∈ plannedVersions candidates protectedNames ↔ candidate ∈ candidates ∧ candidate.1.name ∉ protectedNames := by
  have left : candidate ∈ candidates.filter (fun candidate => candidate.1.name ∉ protectedNames) ↔
      candidate ∈ candidates ∧ candidate.1.name ∉ protectedNames := by
    rw [List.mem_filter, decide_eq_true_eq]
  rw [← left]
  constructor
  · intro planned
    rcases List.mem_append.mp planned with legacy | other
    · exact (List.mem_filter.mp legacy).1
    · exact (List.mem_filter.mp other).1
  · intro member
    by_cases legacy : candidate.2 = .legacyRuntime
    · exact List.mem_append_left _ (List.mem_filter.mpr ⟨member, decide_eq_true legacy⟩)
    · exact List.mem_append_right _ (List.mem_filter.mpr ⟨member, decide_eq_true legacy⟩)

theorem eq_of_id {first second : PackageVersion} (distinct : (list.map PackageVersion.id).Nodup) (member : first ∈ list)
    (other : second ∈ list) (same : first.id = second.id) : first = second :=
  List.inj_on_of_nodup_map distinct member other same

/-- The name of a version that is no candidate is protected with all that it reaches. -/
theorem protectedDigests_eq_ok (success : protectedDigests references list candidates = .ok protectedNames)
    (some : candidates ≠ []) {version : PackageVersion} (member : version ∈ list)
    (kept : version.id ∉ candidates.map fun candidate => candidate.1.id) {name : Text}
    (reaches : Reaches references version.name name) : name ∈ protectedNames := by
  rw [protectedDigests, if_neg some] at success
  obtain ⟨all, closed⟩ := protectReachable_closed success fun digest there => .inl there
  refine reaches_protected closed (all _ (List.mem_dedup.mpr (List.mem_map_of_mem ?_))) reaches
  exact List.mem_filter.mpr ⟨member, decide_eq_true kept⟩

theorem protectedDigests_ne_exhausted : Fails (· ≠ .exhausted) (protectedDigests references list candidates) := by
  unfold protectedDigests
  dsimp only
  split
  · exact fails_ok _
  · refine protectReachable_ne_exhausted (Nat.add_le_add_left ?_ _)
    exact (List.length_filter_le _ _).trans (List.length_map _).le

theorem planSound {again : List PackageVersion} {manifests : List (Text × RegistryManifest)}
    (distinct : (again.map PackageVersion.id).Nodup)
    (verified : verifyWeeklies run (chooseWeekly run (datedVersions before)) again = .ok list)
    (made : candidates =
      candidateVersions run ((chooseWeekly run (datedVersions before)).map fun choice => choice.2.tag) list)
    (inspected : candidates ≠ [] → ∀ version ∈ list, version.name ∈ manifests.map Prod.fst)
    (closed : protectedDigests (descriptorsOf manifests) list candidates = .ok protectedNames) :
    PlanSound run ⟨before, list, manifests, descriptorsOf manifests, chooseWeekly run (datedVersions before),
      plannedVersions candidates protectedNames⟩ := by
  have chosen := chooseWeekly_sound run (datedVersions before)
  have parsed : ∀ item ∈ datedVersions before, parseDateTag item.tag = some item.date := fun item => mem_datedVersions
  obtain ⟨promoted, present⟩ := verifyWeeklies_eq_ok verified fun choice member => by
    rw [parsed _ (chosen.listed choice member).1]
    rfl
  have ids : (list.map PackageVersion.id).Nodup := promoted.ids ▸ distinct
  -- a version that a rule keeps shares its id with no candidate
  have kept : ∀ version ∈ list, Kept run (chooseWeekly run (datedVersions before)) version →
      version.id ∉ candidates.map fun candidate => candidate.1.id := by
    intro version member keeps there
    obtain ⟨candidate, listed, same⟩ := List.mem_map.mp there
    rw [made] at listed
    obtain ⟨own, kind⟩ := mem_candidateVersions.mp listed
    rw [eq_of_id ids own member same, keeps.candidateKind_eq chosen parsed] at kind
    cases kind
  have some : ∀ candidate ∈ plannedVersions candidates protectedNames, candidates ≠ [] := fun candidate member =>
    List.ne_nil_of_mem (mem_plannedVersions.mp member).1
  constructor
  · rfl
  · intro any version listed
    obtain ⟨candidate, member⟩ := List.exists_mem_of_ne_nil _ any
    cases found : mapGet? version.name manifests with
    | none => exact absurd (inspected (some candidate member) version listed) (mapGet?_none found)
    | some manifest =>
      refine ⟨manifest, rfl, ?_⟩
      rw [descriptorsOf, mapGet?_map, found]
      rfl
  · intro candidate member
    exact (mem_candidateVersions.mp (made ▸ (mem_plannedVersions.mp member).1)).1
  · intro candidate member version listed keeps reaches
    refine (mem_plannedVersions.mp member).2 ?_
    exact protectedDigests_eq_ok closed (some candidate member) listed (kept version listed keeps)
      (reaches_descriptorsOf.mpr reaches)
  · intro item member old
    obtain ⟨choice, choiceOf, week⟩ := List.mem_map.mp (chosen.chosen item member old)
    obtain ⟨there, own, age⟩ := chosen.listed choice choiceOf
    have tagged := present choice choiceOf
    refine ⟨choice.2, there, own ▸ week, age, tagged, fun candidate planned same => ?_⟩
    obtain ⟨version, listed, equal, tag⟩ := tagged
    refine kept version listed (.weekly choiceOf tag) (List.mem_map.mpr ⟨candidate, (mem_plannedVersions.mp planned).1, ?_⟩)
    exact same.trans equal.symm

/-- What a run has requested is as its plan says. -/
def RetentionSound (run : RegistryRetention) (t : RegistryState) : Prop :=
  ∃ plan, t.plan = some plan ∧ PlanSound run plan ∧ ∀ request ∈ t.requests, RequestSound plan request

end Plans

section Runs

variable {run : RegistryRetention}

/-- What holds when a run stops with an error. -/
def StoppedRun (run : RegistryRetention) (error : RegistryError) (t : RegistryState) : Prop :=
  (t.requests = [] ∨ RetentionSound run t) ∧ error ≠ .exhausted

theorem Undone.stoppedRun {error : RegistryError} (undone : Undone .start error t) : StoppedRun run error t := by
  obtain ⟨rfl, other⟩ := undone
  exact ⟨.inl rfl, other⟩

theorem UnreadManifests.stoppedRun {error : RegistryError} (stopped : UnreadManifests .start error t) : StoppedRun run error t := by
  refine ⟨.inl ?_, stopped.2⟩
  rw [stopped.1]
  rfl

theorem deletionPreflight_ends : Ends (deletionPreflight run) (fun _ t => t = s) (Undone s) s := by
  unfold deletionPreflight
  split
  · exact ends_pure rfl
  · refine .bind (ends_ask ⟨rfl, by decide⟩ (fun _ _ never => by cases never) fun answer granted read => ?_)
    exact ends_require (fun _ => rfl) ⟨rfl, by decide⟩

theorem promoteWeekly_ends : Ends (promoteWeekly run) (fun _ t => t = s) (Undone s) s := by
  unfold promoteWeekly
  split
  · exact ends_pure rfl
  · refine .bind (ends_ask ⟨rfl, by decide⟩ (fun _ _ never => by cases never) fun answer granted read => ?_)
    exact ends_require (fun _ => rfl) ⟨rfl, by decide⟩

theorem runPlan_ends {plan : RegistryPlan} (inspected : ManifestsRead .start s) (sound : PlanSound run plan) :
    Ends (if run.dryRun = true then pure 0 else deletePlanned plan.planned) (fun _ => RetentionSound run) (StoppedRun run)
      { s with
        inventoryBaseline := plan.list.map fun version => (version.id, fingerprint version)
        plan := some plan } := by
  rw [inspected]
  have start : DeletionSound plan [] { RegistryState.start with
      manifests := s.manifests
      inventoryBaseline := plan.list.map fun version => (version.id, fingerprint version)
      plan := some plan } := by
    constructor
    · rfl
    · rfl
    · simp [Accounted, RegistryState.start]
    · simp [RegistryState.start]
  have whole : ∀ t, RequestsSound plan t → RetentionSound run t := fun t requests =>
    ⟨plan, requests.recorded, sound, requests.requests⟩
  split
  · exact ends_pure (whole _ start.all)
  · refine (deletePlanned_ends start rfl).mono (fun _ t => whole t) ?_
    rintro error t ⟨requests, other⟩
    exact ⟨.inr (whole t requests), other⟩

/-- However the registry answers and whoever changes it: a run only requests deletions that are sound, of versions that
its plan has and that nothing reaches which a rule keeps. -/
theorem runGhcrRetention_sound (run : RegistryRetention) :
    Ends (runGhcrRetention run) (fun _ => RetentionSound run) (StoppedRun run) .start := by
  refine .bind (versions_ends.mono ?_ fun error t => Undone.stoppedRun)
  rintro before t ⟨rfl, -⟩
  refine .bind (deletionPreflight_ends.mono ?_ fun error t => Undone.stoppedRun)
  rintro - t rfl
  have promotions : Ends (each (chooseWeekly run (datedVersions before)) fun _ => promoteWeekly run) (fun _ t => t = .start)
      (Undone .start) .start := by
    refine ends_each (fun _ _ t same => ?_) rfl
    subst same
    exact promoteWeekly_ends
  refine .bind (promotions.mono ?_ fun error t => Undone.stoppedRun)
  rintro - t rfl
  refine .bind (versions_ends.mono ?_ fun error t => Undone.stoppedRun)
  rintro again t ⟨rfl, distinct⟩
  refine .bind (ends_ofExcept (fun list verified => ?_) fun error failed => ?_)
  · refine .bind (inspectManifests_ends.mono ?_ fun error t => UnreadManifests.stoppedRun)
    rintro references t ⟨read, rfl, inspected⟩
    refine .bind (ends_ofExcept (fun protectedNames closed => ?_) fun error failed => ?_)
    · exact .bind (ends_mark (runPlan_ends read (planSound distinct verified rfl inspected closed)))
    · exact (UnreadManifests.stoppedRun ⟨read, protectedDigests_ne_exhausted error failed⟩)
  · exact ⟨.inl rfl, verifyWeeklies_ne_exhausted _ _ error failed⟩

/-- Whenever a deletion is requested, only versions are missing that the run requested to delete before. -/
def MissingOnlyRequested (list : List PackageVersion) : List DeleteRequest → List Nat → Prop
  | [], _ => True
  | request :: rest, requested =>
    (∀ prior ∈ list, prior.id ∈ requested ∨ prior.id ∈ request.current.map PackageVersion.id) ∧
      MissingOnlyRequested list rest (requested ++ [request.version.id])

/-- An untagged version that is old. -/
def untaggedVersion (id : Nat) : PackageVersion where
  id := id
  name := "sha256:".toList ++ List.replicate 64 (if id = 1 then 'a' else 'b')
  tags := []
  updatedAt := some "1970-01-01T00:00:00Z".toList
  createdAt := none

/-- A run on the first day of 2026. -/
def plainRetention : RegistryRetention where
  now := 20454 * dayMs
  dryRun := false
  purgeLegacyRuntimes := true
  onDemandRetentionDays := 7
  untaggedRetentionDays := 14
  dateOf := fun _ => some 0

/-- An answer that is a page of versions with the given ids, and grants and confirms all else. -/
def pageOf (ids : List Nat) : Reply RegistryAnswer :=
  .done ⟨ids.map fun id => some (untaggedVersion id), true, some ⟨true, false, none, none⟩, some 204⟩

/-- The first of two planned versions is gone when its turn comes: the second one is requested to be deleted although the
list lacks a version that the run never requested to delete. -/
theorem deletion_despite_missing : ∃ t plan,
    replay? (runGhcrRetention plainRetention) [pageOf [1, 2], pageOf [], pageOf [1, 2], pageOf [], pageOf [], pageOf [],
      pageOf [2], pageOf [], pageOf [2], pageOf [], pageOf [], pageOf [], pageOf [], pageOf []] .start = some (.ok 1, t) ∧
    t.plan = some plan ∧ ¬ MissingOnlyRequested plan.list t.requests [] := by
  refine ⟨_, _, rfl, rfl, ?_⟩
  intro missing
  exact absurd (missing.1 (untaggedVersion 1) List.mem_cons_self) (by decide)

end Runs

end LatexRenderer
