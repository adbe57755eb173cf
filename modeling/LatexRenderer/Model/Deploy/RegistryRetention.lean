import LatexRenderer.Model.Deploy.LanAddress
import LatexRenderer.Machine.Process
import LatexRenderer.Model.Maps
import LatexRenderer.Model.Texts

/-! # Dates in tags

Times are in milliseconds since 1970; a date is the start of its day in UTC.
-/

namespace LatexRenderer

def dayMs : Int := 86400000

/-- The days before a year of the calendar. -/
def daysBeforeYear (year : Int) : Int :=
  365 * (year - 1970) + (year - 1969) / 4 - (year - 1901) / 100 + (year - 1601) / 400

/-- Whether a year has a leap day. -/
def leapYear (year : Int) : Bool := daysBeforeYear (year + 1) - daysBeforeYear year == 366

/-- The days of a month. -/
def daysOfMonth (year : Int) (month : Nat) : Nat :=
  if month = 2 then (if leapYear year then 29 else 28) else if month ∈ [4, 6, 9, 11] then 30 else 31

/-- The days from 1970 to a date. -/
def dayNumber (year : Int) (month day : Nat) : Int :=
  daysBeforeYear year + (((List.range (month - 1)).map fun before => (daysOfMonth year (before + 1) : Int)).sum + day - 1)

def utcYear (day : Int) : Int :=
  let near := 1970 + day * 400 / 146097
  if day < daysBeforeYear near then near - 1 else if daysBeforeYear (near + 1) ≤ day then near + 1 else near

/-- The first day of a year as `Date.UTC(year, 0, 1)` has it: the years up to 99 are those of the last century. -/
def utcYearStart (year : Int) : Int := daysBeforeYear (if 0 ≤ year ∧ year ≤ 99 then 1900 + year else year)

/-- `getUTCDay() || 7`. -/
def utcWeekday (day : Int) : Int := (day + 3) % 7 + 1

/-- The number that digits stand for. -/
def digitsValue (digits : Text) : Nat := digits.foldl (fun value digit => value * 10 + (digit.toNat - '0'.toNat)) 0

/-- `\d`, so often. -/
def digitsOf (count : Nat) (text : Text) : Bool := decide (text.length = count) && text.all Char.isDigit

def parseDateTag (tag : Text) : Option Int :=
  let year := tag.take 4
  let month := (tag.drop 5).take 2
  let day := tag.drop 8
  if digitsOf 4 year && digitsOf 2 month && digitsOf 2 day && tag[4]? == some '-' && tag[7]? == some '-' then
    if 1 ≤ digitsValue month ∧ digitsValue month ≤ 12 ∧ 1 ≤ digitsValue day ∧
        digitsValue day ≤ daysOfMonth (digitsValue year) (digitsValue month) then
      some (dayNumber (digitsValue year) (digitsValue month) (digitsValue day) * dayMs)
    else none
  else none

/-- `/^runtime-v1-(\d{4}-\d{2}-\d{2})-[a-f0-9]{32}$/` with the date in it. -/
def parseLegacyRuntimeDateTag (tag : Text) : Option Int :=
  let suffix := tag.drop 22
  if "runtime-v1-".toList <+: tag ∧ tag[21]? = some '-' ∧ suffix.length = 32 ∧ suffix.all hexLower = true then
    parseDateTag ((tag.drop 11).take 10)
  else none

def ageDays (today date : Int) : Int := (today - date) / dayMs

/-- Two digits. -/
def padTwo (value : Int) : Text :=
  let digits := (toString value).toList
  List.replicate (2 - digits.length) '0' ++ digits

def isoWeek (date : Int) : Text :=
  let day := date / dayMs
  let value := day + 4 - utcWeekday day
  let year := utcYear value
  let week := (value - utcYearStart year + 1 + 6) / 7
  (toString year).toList ++ "-W".toList ++ padTwo week

def weeklyAge (today : Int) (tag : Text) : Option Int :=
  let year := (tag.drop 7).take 4
  let week := tag.drop 13
  if "weekly-".toList <+: tag ∧ digitsOf 4 year = true ∧ (tag.drop 11).take 2 = "-W".toList ∧ digitsOf 2 week = true then
    if 1 ≤ digitsValue week ∧ digitsValue week ≤ 53 then
      let fourth := utcYearStart (digitsValue year) + 3
      let monday := fourth - (utcWeekday fourth - 1) + ((digitsValue week : Int) - 1) * 7
      some (ageDays today (monday * dayMs))
    else none
  else none

end LatexRenderer

/-! ## The retention of registry versions

`runGhcrRetention`: versions of a package are listed, weekly tags are promoted, what no rule keeps is a candidate, and
candidates that no kept version reaches are deleted one after another. The registry answers every request as it likes, and
others change it between requests.
-/

namespace LatexRenderer

open Machine
open Machine.Process

/-- A version as a list of the registry has it. -/
structure PackageVersion where
  id : Nat
  name : Text
  tags : List Text
  updatedAt : Option Text
  createdAt : Option Text
deriving DecidableEq

/-- A manifest: its kind, its entries and its subject, with a digest each where there is one. -/
structure RegistryManifest where
  supported : Bool
  index : Bool
  manifests : Option (List Text)
  subject : Option Text
deriving DecidableEq

/-- The settings of a run; `dateOf` reads the times of versions. -/
structure RegistryRetention where
  now : Int
  dryRun : Bool
  purgeLegacyRuntimes : Bool
  onDemandRetentionDays : Int
  untaggedRetentionDays : Int
  dateOf : Text → Option Int

/-- The errors of a run. -/
inductive RegistryError where
  | request
  | invalidVersion
  | duplicateVersion
  | tooManyPages
  | preflight
  | promotion
  | weeklySource
  | weeklyAlias
  | inspection
  | invalidManifest
  | invalidReference
  | missingReference
  | exhausted
  | versionChanged
  | inventoryChanged
  | deletionStatus
  | unconfirmed
deriving DecidableEq, Repr

instance : Fault RegistryError := ⟨.request⟩

/-- A dated tag of a version. -/
structure DatedVersion where
  tag : Text
  date : Int
  versionId : Nat
deriving DecidableEq

/-- What a candidate is. -/
inductive CandidateKind where
  | untagged
  | legacyRuntime
  | base
deriving DecidableEq, Repr

section Rules

variable (run : RegistryRetention)

def RegistryRetention.today : Int := run.now / dayMs * dayMs

def versionAgeDays (version : PackageVersion) : Option Int :=
  ((version.updatedAt <|> version.createdAt).bind run.dateOf).map fun value => max 0 (ageDays run.today value)

/-- The dated tags of a list. -/
def datedVersions (list : List PackageVersion) : List DatedVersion :=
  list.flatMap fun version => version.tags.filterMap fun tag =>
    (parseDateTag tag).map fun date => { tag, date, versionId := version.id }

/-- The loop over the dated tags: the latest date of each week that is old enough. -/
def chooseWeekly (dated : List DatedVersion) : List (Text × DatedVersion) :=
  dated.foldl (fun weeklyChoices item =>
    let age := ageDays run.today item.date
    if age < 15 ∨ 90 < age then weeklyChoices
    else
      let week := isoWeek item.date
      match mapGet? week weeklyChoices with
      | some previous => if previous.date < item.date then mapSet week item weeklyChoices else weeklyChoices
      | none => mapSet week item weeklyChoices) []

/-- The tag of a week. -/
def weeklyTag (week : Text) : Text := "weekly-".toList ++ week

/-- A tag that no rule knows. -/
def unknownTag (tag : Text) : Bool :=
  decide (tag ≠ "latest".toList) && (parseDateTag tag).isNone && (weeklyAge run.today tag).isNone

/-- A tag that protects its version. -/
def protectingTag (selectedDates : List Text) (versionAge : Option Int) (tag : Text) : Bool :=
  match parseDateTag tag with
  | some date =>
    let age := ageDays run.today date
    decide (age ≤ 14) || (decide (15 ≤ age) && decide (age ≤ 90) && selectedDates.contains tag) ||
      (decide (14 < age) && (versionAge.all fun versionAge => decide (versionAge ≤ run.onDemandRetentionDays)))
  | none => (weeklyAge run.today tag).any fun age => decide (age ≤ 90)

/-- Why a version is a candidate, if it is one. -/
def candidateKind (selectedDates : List Text) (version : PackageVersion) : Option CandidateKind :=
  let versionAge := versionAgeDays run version
  if version.tags = [] then
    if versionAge.all (fun age => decide (age ≤ run.untaggedRetentionDays)) = true then none else some .untagged
  else
    let legacyRuntimeTags := version.tags.filter fun tag => (parseLegacyRuntimeDateTag tag).isSome
    if 0 < legacyRuntimeTags.length then
      if run.purgeLegacyRuntimes = false then none
      else if legacyRuntimeTags.length ≠ version.tags.length then none
      else some .legacyRuntime
    else if version.tags.any (unknownTag run) = true then none
    else if version.tags.contains "latest".toList || version.tags.any (protectingTag run selectedDates versionAge) then none
    else some .base

/-- The candidates of a list. -/
def candidateVersions (selectedDates : List Text) (list : List PackageVersion) : List (PackageVersion × CandidateKind) :=
  list.filterMap fun version => (candidateKind run selectedDates version).map fun kind => (version, kind)

/-- The order of texts in `sort`. -/
def insertText (text : Text) : List Text → List Text
  | [] => [text]
  | first :: rest =>
    if unitsBefore (utf16Units text) (utf16Units first) then text :: first :: rest else first :: insertText text rest

def sortTexts (texts : List Text) : List Text := texts.foldr insertText []

def fingerprint (version : PackageVersion) : Text × List Text × Option Text :=
  (version.name, sortTexts version.tags, version.updatedAt)

end Rules

section References

/-- `/^sha256:[a-f0-9]{64}$/`. -/
def digestName (text : Text) : Bool :=
  decide (text.take 7 = "sha256:".toList) && decide (text.length = 71) && (text.drop 7).all hexLower

/-- The references of a manifest. -/
def manifestReferences (manifest : RegistryManifest) : Except RegistryError (List Text) := do
  demand (manifest.supported = true ∧ (manifest.index = true → manifest.manifests.isSome = true)) .invalidManifest
  let descriptors := manifest.manifests.getD [] ++ manifest.subject.toList
  demand (descriptors.all digestName = true) .invalidReference
  pure descriptors

/-- The references of a digest. -/
def referencesOf (references : List (Text × List Text)) (digest : Text) : List Text := (mapGet? digest references).getD []

/-- The loop over the references of one digest. -/
def protectReferences (references : List (Text × List Text)) : List Text → List Text × List Text →
    Except RegistryError (List Text × List Text)
  | [], x => .ok x
  | digest :: rest, (pending, protectedDigests) => do
    demand (digest ∈ references.map Prod.fst) .missingReference
    protectReferences references rest
      (if digest ∈ protectedDigests then (pending, protectedDigests)
        else (pending ++ [digest], protectedDigests ++ [digest]))

/-- The loop over the digests that are pending. -/
def protectReachable (references : List (Text × List Text)) : Nat → List Text → List Text → Except RegistryError (List Text)
  | _, [], protectedDigests => .ok protectedDigests
  | 0, _ :: _, _ => .error .exhausted
  | fuel + 1, digest :: rest, protectedDigests => do
    let x ← protectReferences references (referencesOf references digest) (rest, protectedDigests)
    protectReachable references fuel x.1 x.2

/-- The digests that no candidate has, with all that they reach; every digest is pending once. -/
def protectedDigests (references : List (Text × List Text)) (list : List PackageVersion)
    (candidates : List (PackageVersion × CandidateKind)) : Except RegistryError (List Text) :=
  let kept := ((list.filter fun version => version.id ∉ candidates.map fun candidate => candidate.1.id).map
    PackageVersion.name).dedup
  if candidates = [] then .ok kept else protectReachable references (kept.length + references.length) kept kept

/-- `planned`: the candidates whose digest is not protected, those of legacy Runtimes first. -/
def plannedVersions (candidates : List (PackageVersion × CandidateKind)) (protectedDigests : List Text) :
    List (PackageVersion × CandidateKind) :=
  let remaining := candidates.filter fun candidate => candidate.1.name ∉ protectedDigests
  (remaining.filter fun candidate => candidate.2 = .legacyRuntime) ++
    remaining.filter fun candidate => candidate.2 ≠ .legacyRuntime

end References

section Run

/-- The requests of a run. -/
inductive RegistrySite where
  | versions
  | preflight
  | promote
  | readManifest
  | plan
  | baseline
  | absent
  | delete
  | deletion
deriving DecidableEq, Repr

/-- An answer: one page of versions, where what is no version is `none`; whether a request was granted; a manifest that
could be read as JSON; the status of a deletion, which is unknown when the reply is lost. -/
structure RegistryAnswer where
  batch : List (Option PackageVersion)
  granted : Bool
  manifest : Option RegistryManifest
  status : Option Nat

/-- What a run goes by: the first list, the list after the promotion, the manifests that were read, what they refer to, the
weekly choices and what is planned. -/
structure RegistryPlan where
  before : List PackageVersion
  list : List PackageVersion
  manifests : List (Text × RegistryManifest)
  references : List (Text × List Text)
  weeklyChoices : List (Text × DatedVersion)
  planned : List (PackageVersion × CandidateKind)

/-- A version that is accounted for, with the list that it was absent from. -/
abbrev Absence : Type := Nat × List PackageVersion

/-- A request for a deletion, with the list that was read before it and what was accounted for then. -/
structure DeleteRequest where
  version : PackageVersion
  current : List PackageVersion
  accountedAbsent : List Absence

/-- The variables of the deletions, with the manifests that the registry has answered, the plan and the requests so far. -/
structure RegistryState where
  inventoryBaseline : List (Nat × Text × List Text × Option Text)
  accountedAbsent : List Absence
  manifests : List (Text × RegistryManifest)
  plan : Option RegistryPlan
  requests : List DeleteRequest

/-- Before a run. -/
def RegistryState.start : RegistryState where
  inventoryBaseline := []
  accountedAbsent := []
  manifests := []
  plan := none
  requests := []

/-- A part of a run. -/
abbrev RegistryProcess : Type → Type := Process RegistrySite RegistryState RegistryAnswer RegistryError

/-- The checks of one page. -/
def addBatch : List (Option PackageVersion) → List PackageVersion → Except RegistryError (List PackageVersion)
  | [], all => .ok all
  | none :: _, _ => .error .invalidVersion
  | some version :: rest, all => do
    demand (1 ≤ version.id ∧ digestName version.name = true) .invalidVersion
    demand (version.id ∉ all.map PackageVersion.id) .duplicateVersion
    addBatch rest (all ++ [version])

/-- The loop over the pages. -/
def versionPages : Nat → List PackageVersion → RegistryProcess (List PackageVersion)
  | 0, _ => throw .tooManyPages
  | pages + 1, all => do
    let batch ← ask .versions fun answer _ => .ok answer.batch
    let all ← Process.ofExcept (addBatch batch all)
    if batch.length < 100 then pure all else versionPages pages all

def versions : RegistryProcess (List PackageVersion) := versionPages 100 []

/-- A version that a list does not have is accounted for. -/
def accountAbsent (id : Nat) (active : List PackageVersion) : RegistryProcess Unit :=
  mark .absent fun s => { s with accountedAbsent := s.accountedAbsent ++ [(id, active)] }

/-- The list is that of the plan, but for what is accounted for. -/
def sameInventory (current : List PackageVersion) (s : RegistryState) : Bool :=
  (current.all fun item => (s.inventoryBaseline.find? fun entry => entry.1 == item.id) == some (item.id, fingerprint item)) &&
    s.inventoryBaseline.all fun entry => (s.accountedAbsent.map Prod.fst).contains entry.1 || current.any fun item => item.id == entry.1

/-- The reads after a deletion. -/
def confirmDeletion (version : PackageVersion) (status : Option Nat) : Nat → RegistryProcess Bool
  | 0 => throw .unconfirmed
  | attempts + 1 => do
    let active ← versions
    if version.id ∈ active.map PackageVersion.id then confirmDeletion version status attempts
    else
      accountAbsent version.id active
      pure (decide (status = some 204))

/-- `deleteVersion`: whether the version was deleted; otherwise it was already absent. -/
def deleteVersion (version : PackageVersion) : RegistryProcess Bool := do
  let current ← versions
  match current.find? fun item => item.id == version.id with
  | none =>
    accountAbsent version.id current
    pure false
  | some live =>
    require (fingerprint live = fingerprint version) .versionChanged
    let unchanged ← view .baseline (sameInventory current)
    require (unchanged = true) .inventoryChanged
    mark .delete fun s => { s with requests := s.requests ++ [⟨version, current, s.accountedAbsent⟩] }
    let status ← ask .deletion fun answer _ => .ok answer.status
    require (status = none ∨ status = some 204 ∨ status = some 404) .deletionStatus
    confirmDeletion version status 3

/-- The promotion of one weekly choice. -/
def promoteWeekly (run : RegistryRetention) : RegistryProcess Unit :=
  if run.dryRun = true then pure () else do
    let granted ← ask .promote fun answer _ => .ok answer.granted
    require (granted = true) .promotion

/-- The check of one weekly choice; a dry run moves the tag in the list. -/
def verifyWeekly (run : RegistryRetention) (list : List PackageVersion) (choice : Text × DatedVersion) :
    Except RegistryError (List PackageVersion) := do
  let selected ← obtain? (list.find? fun version => version.id == choice.2.versionId) .weeklySource
  demand (choice.2.tag ∈ selected.tags) .weeklySource
  if run.dryRun = true then
    pure (list.map fun version => { version with
      tags := version.tags.filter (fun tag => tag ≠ weeklyTag choice.1) ++
        if version.id = selected.id then [weeklyTag choice.1] else [] })
  else do
    let target := list.filter fun version => version.tags.contains (weeklyTag choice.1)
    demand (target.map (fun version => (version.id, version.name)) = [(selected.id, selected.name)]) .weeklyAlias
    pure list

/-- The checks of all weekly choices. -/
def verifyWeeklies (run : RegistryRetention) : List (Text × DatedVersion) → List PackageVersion →
    Except RegistryError (List PackageVersion)
  | [], list => .ok list
  | choice :: rest, list => do
    let list ← verifyWeekly run list choice
    verifyWeeklies run rest list

/-- The manifest of a version, as the registry answers it. -/
def readManifest (name : Text) : RegistryProcess RegistryManifest :=
  act .readManifest fun answer s => do
    let manifest ← obtain? answer.manifest .inspection
    pure (manifest, { s with manifests := mapSet name manifest s.manifests })

/-- The loop over the manifests. -/
def readReferences : List PackageVersion → List (Text × List Text) → RegistryProcess (List (Text × List Text))
  | [], references => pure references
  | version :: rest, references => do
    let manifest ← readManifest version.name
    let descriptors ← Process.ofExcept (manifestReferences manifest)
    readReferences rest (mapSet version.name descriptors references)

/-- The deletions; how many there were. -/
def deletePlanned : List (PackageVersion × CandidateKind) → RegistryProcess Nat
  | [] => pure 0
  | candidate :: rest => do
    let removed ← deleteVersion candidate.1
    let later ← deletePlanned rest
    pure (if removed then later + 1 else later)

/-- The check that versions may be deleted. -/
def deletionPreflight (run : RegistryRetention) : RegistryProcess Unit :=
  if run.dryRun = true then pure () else do
    let granted ← ask .preflight fun answer _ => .ok answer.granted
    require (granted = true) .preflight

/-- The manifests are only read when there is a candidate. -/
def inspectManifests (list : List PackageVersion) (candidates : List (PackageVersion × CandidateKind)) :
    RegistryProcess (List (Text × List Text)) :=
  if candidates = [] then pure [] else readReferences list []

/-- `runGhcrRetention`; it returns how many versions were deleted. -/
def runGhcrRetention (run : RegistryRetention) : RegistryProcess Nat := do
  let before ← versions
  deletionPreflight run
  let weeklyChoices := chooseWeekly run (datedVersions before)
  each weeklyChoices fun _ => promoteWeekly run
  let again ← versions
  let list ← Process.ofExcept (verifyWeeklies run weeklyChoices again)
  let candidates := candidateVersions run (weeklyChoices.map fun choice => choice.2.tag) list
  let references ← inspectManifests list candidates
  let protectedNames ← Process.ofExcept (protectedDigests references list candidates)
  let planned := plannedVersions candidates protectedNames
  mark .plan fun s => { s with
    inventoryBaseline := list.map fun version => (version.id, fingerprint version)
    plan := some { before, list, manifests := s.manifests, references, weeklyChoices, planned } }
  if run.dryRun = true then pure 0 else deletePlanned planned

end Run

end LatexRenderer
