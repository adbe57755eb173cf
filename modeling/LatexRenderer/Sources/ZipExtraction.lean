import Mathlib.Data.List.Infix
import LatexRenderer.Model.Sources.ZipExtraction
import LatexRenderer.Sources.EntryPaths

/-! # What an extraction keeps

Names that collide are found with a map from the folded form of every path to its spelling, and a file above or below
another one is found by the file system. `ExtractionSound` is what the loop over the entries keeps; `Broken` is what is
open where it fails.
-/

namespace LatexRenderer

open Machine
open Machine.Process

variable {request : ExtractRequest} {limits : ZipLimits}

section Calls

variable {β : Type} {Q : β → ExtractState → Prop} {E : ZipError → ExtractState → Prop} {s : ExtractState}
  {site : ExtractSite} {error : ZipError}

theorem ends_readCall {f : ExtractAnswer → β} (fails : E error (s.refuse site)) (reads : ∀ answer, Q (f answer) s) :
    Ends (readCall site error f) Q E s := by
  refine ends_call fails fun answer value t taken => ?_
  cases taken
  exact reads answer

theorem ends_changeCall {Q : Unit → ExtractState → Prop} {possible : ExtractState → Bool}
    {change : ExtractState → ExtractState} (fails : E error (s.refuse site))
    (changes : possible s = true → Q () (change s)) : Ends (changeCall site error possible change) Q E s := by
  refine ends_call fails fun _ value t taken => ?_
  split at taken
  · next holds =>
    cases taken
    exact changes holds
  · cases taken

end Calls

section Handles

/-- The calls of the loop. -/
def innerSites : List ExtractSite :=
  [.nextEntry, .readHeader, .readName, .mkdirParent, .chmodParent, .realpathParent, .openEntry, .openTarget, .chmodTarget,
    .pipeline]

/-- Between two entries the archive is open and nothing else is. -/
structure Ready (s : ExtractState) : Prop where
  destination : s.destination = true
  zipHandle : s.zipHandle = true
  streams : s.streams = 0
  outputs : s.outputs = 0
  refused : s.refused = []

/-- The loop has failed: the stream of an entry or the file that is written is open if the file could not be opened or its
mode could not be set. -/
structure Broken (t : ExtractState) : Prop where
  destination : t.destination = true
  zipHandle : t.zipHandle = true
  inner : ∀ site ∈ t.refused, site ∈ innerSites
  idle : t.streams = 0 ∧ t.outputs = 0 ↔ .openTarget ∉ t.refused ∧ .chmodTarget ∉ t.refused

variable {s : ExtractState} {site : ExtractSite}

theorem Ready.broken (ready : Ready s) : Broken s where
  destination := ready.destination
  zipHandle := ready.zipHandle
  inner := by simp [ready.refused]
  idle := by simp [ready.streams, ready.outputs, ready.refused]

theorem Ready.refuse (ready : Ready s) (inner : site ∈ innerSites) (closed : site ≠ .openTarget ∧ site ≠ .chmodTarget) :
    Broken (s.refuse site) where
  destination := ready.destination
  zipHandle := ready.zipHandle
  inner := by simpa [ExtractState.refuse, ready.refused] using inner
  idle := by simp [ExtractState.refuse, ready.streams, ready.outputs, ready.refused, closed.1.symm, closed.2.symm]

end Handles

section Files

/-- The path at which a file of the archive is written. -/
def ExtractRequest.target (request : ExtractRequest) (normalized : Text) : List String :=
  resolvePath request.root (pathSegments normalized)

/-- What goes through the meter is counted and is within the limits. -/
theorem meter_eq_some {chunks : List Octets} {fileBytes bytes : Nat} {counted : Nat × Nat}
    (metered : meter limits chunks fileBytes bytes = some counted) (short : fileBytes ≤ limits.maxFileBytes)
    (total : bytes ≤ limits.maxExtractedBytes) :
    counted = (fileBytes + chunks.flatten.length, bytes + chunks.flatten.length) ∧
      counted.1 ≤ limits.maxFileBytes ∧ counted.2 ≤ limits.maxExtractedBytes := by
  induction chunks generalizing fileBytes bytes with
  | nil =>
    cases metered
    exact ⟨rfl, short, total⟩
  | cons chunk rest ih =>
    rw [meter] at metered
    split at metered
    · cases metered
    · next within =>
      obtain ⟨same, bounds⟩ := ih metered (by omega) (by omega)
      rw [List.flatten_cons, List.length_append, ← Nat.add_assoc, ← Nat.add_assoc]
      exact ⟨same, bounds⟩

/-- One more file. -/
structure FileExtracted (request : ExtractRequest) (normalized : Text) (x y : Extracted) (s t : ExtractState)
    (content : Octets) : Prop where
  ready : Ready t
  seen : y.seen = x.seen
  canonicalNames : y.canonicalNames = x.canonicalNames
  paths : y.paths = x.paths ++ [normalized]
  files : y.files = x.files + 1
  few : y.files ≤ request.limits.maxFiles
  bytes : y.bytes = x.bytes + content.length
  short : content.length ≤ request.limits.maxFileBytes
  total : y.bytes ≤ request.limits.maxExtractedBytes
  written : t.files = s.files ++ [(request.target normalized, content)]
  directories : t.directories = s.directories ++ (request.target normalized).dropLast.inits
  parents : ∀ path ∈ (request.target normalized).dropLast.inits, path ∉ s.files.map Prod.fst
  fresh : request.target normalized ∉ s.files.map Prod.fst
  free : request.target normalized ∉ t.directories

/-- The file that was created last is the one that is written. -/
theorem map_write_last {files : List (List String × Octets)} {target : List String} (content : Octets)
    (fresh : target ∉ files.map Prod.fst) :
    (files ++ [(target, [])]).map (fun file : List String × Octets => if file.1 = target then (target, content) else file) =
      files ++ [(target, content)] := by
  rw [List.map_append]
  congr 1
  · refine (List.map_congr_left fun file member => ?_).trans (List.map_id _)
    have other : file.1 ≠ target := fun same => fresh (same ▸ List.mem_map_of_mem member)
    exact if_neg other
  · simp

theorem not_mem_of_contains {paths : List (List String)} {path : List String} (apart : (!paths.contains path) = true) :
    path ∉ paths := by
  rw [Bool.not_eq_true', Bool.eq_false_iff, Ne, List.contains_iff_mem] at apart
  exact apart

variable {x : Extracted} {s : ExtractState} {entry : ZipEntry} {entrypoint : Option Text} {normalized : Text}

theorem extractFile_ends (ready : Ready s) (total : x.bytes ≤ request.limits.maxExtractedBytes) :
    Ends (extractFile request entrypoint entry normalized x)
      (fun y t => ∃ content, FileExtracted request normalized x y s t content) (fun _ => Broken) s := by
  refine .bind (ends_require (fun few => ?_) ready.broken)
  refine .bind (ends_require (fun _ => ?_) ready.broken)
  refine .bind (ends_require (fun _ => ?_) ready.broken)
  refine .bind (ends_require (fun _ => ?_) ready.broken)
  refine .bind (ends_require (fun _ => ?_) ready.broken)
  refine .bind (ends_changeCall (ready.refuse (by decide) (by decide)) fun possible => ?_)
  have parents : ∀ path ∈ (request.target normalized).dropLast.inits, path ∉ s.files.map Prod.fst := fun path member =>
    not_mem_of_contains (List.all_eq_true.mp possible path member)
  obtain ⟨made, shape⟩ : ∃ made, made = s.mkdir (request.target normalized).dropLast := ⟨_, rfl⟩
  have still : Ready made := by
    subst shape
    exact ⟨ready.destination, ready.zipHandle, ready.streams, ready.outputs, ready.refused⟩
  refine .bind (ends_changeCall (shape ▸ still.refuse (by decide) (by decide)) fun _ => ?_)
  refine .bind (ends_readCall (shape ▸ still.refuse (by decide) (by decide)) fun _ => ?_)
  refine .bind (ends_require (fun _ => ?_) (shape ▸ still.broken))
  refine .bind (ends_changeCall (shape ▸ still.refuse (by decide) (by decide)) fun _ => ?_)
  refine .bind (ends_changeCall ?_ fun possible => ?_)
  · constructor
    · exact ready.destination
    · exact ready.zipHandle
    · simp [ExtractState.refuse, ExtractState.mkdir, ready.refused, innerSites]
    · simp [ExtractState.refuse, ExtractState.mkdir, ready.refused]
  rw [Bool.and_eq_true] at possible
  have fresh : request.target normalized ∉ s.files.map Prod.fst := not_mem_of_contains possible.1
  have free := not_mem_of_contains possible.2
  refine .bind (ends_changeCall ?_ fun _ => ?_)
  · constructor
    · exact ready.destination
    · exact ready.zipHandle
    · simp [ExtractState.refuse, ExtractState.create, ExtractState.mkdir, ready.refused, innerSites]
    · simp [ExtractState.refuse, ExtractState.create, ExtractState.mkdir, ready.refused]
  refine .bind (ends_call ?_ fun answer counted t taken => ?_)
  · constructor
    · exact ready.destination
    · exact ready.zipHandle
    · simp [ExtractState.refuse, ExtractState.finish, ExtractState.create, ExtractState.mkdir, ready.refused, innerSites]
    · simp [ExtractState.refuse, ExtractState.finish, ExtractState.create, ExtractState.mkdir, ready.refused,
        ready.streams, ready.outputs]
  have closed : ∀ files, Ready { s with
      directories := s.directories ++ (request.target normalized).dropLast.inits
      files := files
      streams := s.streams + 1 - 1, outputs := s.outputs + 1 - 1 } := fun files =>
    ⟨ready.destination, ready.zipHandle, by simp [ready.streams], by simp [ready.outputs], ready.refused⟩
  cases metered : meter request.limits answer.chunks 0 x.bytes with
  | none =>
    rw [metered] at taken
    cases taken
    exact .bind (ends_ofExcept (fun _ never => by cases never) fun _ _ => (closed _).broken)
  | some pair =>
    rw [metered] at taken
    cases taken
    obtain ⟨rfl, short, within⟩ := meter_eq_some metered (Nat.zero_le _) total
    refine .bind (ends_ofExcept (fun counted same => ?_) fun _ never => by cases never)
    cases same
    refine .bind (ends_require (fun _ => ?_) (closed _).broken)
    refine ⟨answer.chunks.flatten, closed _, rfl, rfl, rfl, rfl, few, rfl, ?_, within, map_write_last _ fresh, rfl, parents,
      fresh, free⟩
    simpa using short

end Files

section Names

variable {fold : Text → Text} {name normalized : Text}

/-- Every path that is recorded has its own spelling, and what was recorded keeps its. -/
theorem recordNames_eq_ok {originals : List Text} {names recorded : List (Text × Text)}
    (kept : recordNames fold originals names = .ok recorded) (keys : (names.map Prod.fst).Nodup) :
    (recorded.map Prod.fst).Nodup ∧
      (∀ key value, mapGet? key names = some value → mapGet? key recorded = some value) ∧
      ∀ original ∈ originals, mapGet? (fold original) recorded = some original := by
  induction originals generalizing names with
  | nil =>
    cases kept
    exact ⟨keys, fun _ _ found => found, fun _ never => by cases never⟩
  | cons original rest ih =>
    obtain ⟨prior, later⟩ := demand_bind_eq_ok.mp kept
    obtain ⟨distinct, stays, spelled⟩ := ih later (nodup_mapSet keys)
    have unchanged : ∀ key value, mapGet? key names = some value →
        mapGet? key (mapSet (fold original) original names) = some value := by
      intro key value found
      by_cases same : key = fold original
      · subst same
        rcases prior with absent | already
        · exact absurd (absent.symm.trans found) (by simp)
        · rw [mapGet?_mapSet_self keys, ← already, found]
      · exact mapGet?_of_mem (nodup_mapSet keys) (mem_mapSet_of_ne (mapGet?_mem found) same)
    refine ⟨distinct, fun key value found => stays key value (unchanged key value found), fun other member => ?_⟩
    rcases List.mem_cons.mp member with rfl | further
    · exact stays _ _ (mapGet?_mapSet_self keys)
    · exact spelled other further

theorem mem_componentPaths {path : List Text} (some : path ≠ []) (within : path <+: entryParts name) :
    joinText '/' path ∈ componentPaths name := by
  refine List.mem_map_of_mem ?_
  cases parts : entryParts name with
  | nil =>
    rw [parts] at within
    exact absurd (List.prefix_nil.mp within) some
  | cons part rest =>
    rw [parts] at within
    rw [List.inits_cons, List.tail_cons]
    cases path with
    | nil => exact absurd rfl some
    | cons first later =>
      obtain ⟨rfl, deeper⟩ := List.cons_prefix_cons.mp within
      exact List.mem_map_of_mem ((List.mem_inits _ _).mpr deeper)

end Names

section Loop

/-- The names so far are those of the archive, and what is on disk below the destination is what they tell. -/
structure ExtractionSound (request : ExtractRequest) (base : List (List String × Octets)) (names : List Text)
    (x : Extracted) (s : ExtractState) : Prop where
  ready : Ready s
  seen : x.seen = names.map request.fold
  distinct : x.seen.Nodup
  keys : (x.canonicalNames.map Prod.fst).Nodup
  spelled : ∀ name ∈ names, ∀ original ∈ componentPaths name,
    mapGet? (request.fold original) x.canonicalNames = some original
  accepted : ∀ name ∈ names, EntryPath request.limits name
  paths : x.paths = names.filter fun name => !namesDirectory name
  files : x.files = x.paths.length
  few : x.files ≤ request.limits.maxFiles
  total : x.bytes ≤ request.limits.maxExtractedBytes
  written : ∃ written, s.files = base ++ written ∧ written.map Prod.fst = x.paths.map request.target ∧
    (∀ file ∈ written, file.2.length ≤ request.limits.maxFileBytes) ∧
    (written.map fun file => file.2.length).sum = x.bytes
  directories : ∀ path ∈ x.paths, ∀ parent ∈ (request.target path).dropLast.inits, parent ∈ s.directories
  apart : x.paths.Pairwise fun first second =>
    ¬ request.target first <+: request.target second ∧ ¬ request.target second <+: request.target first

theorem ExtractionSound.new {s : ExtractState} (ready : Ready s) : ExtractionSound request s.files [] .start s where
  ready := ready
  seen := rfl
  distinct := List.nodup_nil
  keys := List.nodup_nil
  spelled := by simp
  accepted := by simp
  paths := rfl
  files := rfl
  few := Nat.zero_le _
  total := Nat.zero_le _
  written := ⟨[], (List.append_nil _).symm, rfl, by simp, rfl⟩
  directories := by simp [Extracted.start]
  apart := List.Pairwise.nil

/-- A path that another one continues is a prefix of its directory. -/
theorem prefix_dropLast {first second : List String} (within : first <+: second) (other : first ≠ second) :
    first ∈ second.dropLast.inits := by
  rw [List.mem_inits]
  obtain ⟨rest, rfl⟩ := within
  cases rest with
  | nil => exact absurd (List.append_nil first).symm other
  | cons part rest =>
    rw [List.dropLast_append_of_ne_nil (List.cons_ne_nil _ _)]
    exact List.prefix_append _ _

variable {base : List (List String × Octets)} {names : List Text} {x y : Extracted} {s t : ExtractState}
  {normalized : Text} {recorded : List (Text × Text)} {entry : ZipEntry} {entrypoint : Option Text}

theorem ExtractionSound.record (sound : ExtractionSound request base names x s)
    (unseen : request.fold normalized ∉ x.seen)
    (kept : recordNames request.fold (componentPaths normalized) x.canonicalNames = .ok recorded) :
    (x.seen ++ [request.fold normalized]).Nodup ∧ (recorded.map Prod.fst).Nodup ∧
      ∀ name ∈ names ++ [normalized], ∀ original ∈ componentPaths name,
        mapGet? (request.fold original) recorded = some original := by
  obtain ⟨keys, stays, spelled⟩ := recordNames_eq_ok kept sound.keys
  refine ⟨List.nodup_append.mpr ⟨sound.distinct, List.nodup_singleton _, ?_⟩, keys, fun name member original within => ?_⟩
  · rintro first earlier second last rfl
    exact unseen (List.mem_singleton.mp last ▸ earlier)
  · rcases List.mem_append.mp member with earlier | last
    · exact stays _ _ (sound.spelled name earlier original within)
    · obtain rfl := List.mem_singleton.mp last
      exact spelled original within

/-- An entry of a directory is recorded and that is all. -/
theorem ExtractionSound.directory (sound : ExtractionSound request base names x s)
    (unseen : request.fold normalized ∉ x.seen)
    (kept : recordNames request.fold (componentPaths normalized) x.canonicalNames = .ok recorded)
    (well : EntryPath request.limits normalized) (named : namesDirectory normalized = true) :
    ExtractionSound request base (names ++ [normalized])
      { x with seen := x.seen ++ [request.fold normalized], canonicalNames := recorded } s := by
  obtain ⟨distinct, keys, spelled⟩ := sound.record unseen kept
  exact {
    ready := sound.ready
    seen := by simp [sound.seen]
    distinct
    keys
    spelled
    accepted := by
      intro name member
      rcases List.mem_append.mp member with earlier | last
      · exact sound.accepted name earlier
      · exact List.mem_singleton.mp last ▸ well
    paths := by simp [sound.paths, named]
    files := sound.files
    few := sound.few
    total := sound.total
    written := sound.written
    directories := sound.directories
    apart := sound.apart }

/-- An entry of a file is recorded and written at a path that no other file is at, above or below. -/
theorem ExtractionSound.file {content : Octets} (sound : ExtractionSound request base names x s)
    (unseen : request.fold normalized ∉ x.seen)
    (kept : recordNames request.fold (componentPaths normalized) x.canonicalNames = .ok recorded)
    (well : EntryPath request.limits normalized) (named : namesDirectory normalized = false)
    (extracted : FileExtracted request normalized
      { x with seen := x.seen ++ [request.fold normalized], canonicalNames := recorded } y s t content) :
    ExtractionSound request base (names ++ [normalized]) y t := by
  obtain ⟨distinct, keys, spelled⟩ := sound.record unseen kept
  obtain ⟨written, files, places, short, sum⟩ := sound.written
  have there : ∀ path ∈ x.paths, request.target path ∈ s.files.map Prod.fst := by
    intro path member
    rw [files, List.map_append, places]
    exact List.mem_append_right _ (List.mem_map_of_mem member)
  have apart : ∀ path ∈ x.paths, ¬ request.target path <+: request.target normalized ∧
      ¬ request.target normalized <+: request.target path := by
    intro path member
    have other : request.target path ≠ request.target normalized := fun same =>
      extracted.fresh (same ▸ there path member)
    refine ⟨fun above => ?_, fun below => ?_⟩
    · exact extracted.parents _ (prefix_dropLast above other) (there path member)
    · have made := sound.directories path member _ (prefix_dropLast below other.symm)
      exact extracted.free (extracted.directories ▸ List.mem_append_left _ made)
  exact {
    ready := extracted.ready
    seen := by simp [extracted.seen, sound.seen]
    distinct := extracted.seen ▸ distinct
    keys := extracted.canonicalNames ▸ keys
    spelled := extracted.canonicalNames ▸ spelled
    accepted := by
      intro name member
      rcases List.mem_append.mp member with earlier | last
      · exact sound.accepted name earlier
      · exact List.mem_singleton.mp last ▸ well
    paths := by simp [extracted.paths, sound.paths, named]
    files := by simp [extracted.files, extracted.paths, sound.files]
    few := extracted.few
    total := extracted.total
    written := by
      refine ⟨written ++ [(request.target normalized, content)], ?_, ?_, ?_, ?_⟩
      · rw [extracted.written, files, List.append_assoc]
      · simp [extracted.paths, places]
      · intro file member
        rcases List.mem_append.mp member with earlier | last
        · exact short file earlier
        · exact List.mem_singleton.mp last ▸ extracted.short
      · simp [extracted.bytes, sum]
    directories := by
      intro path member parent above
      rw [extracted.directories]
      rcases List.mem_append.mp (extracted.paths ▸ member) with earlier | last
      · exact List.mem_append_left _ (sound.directories path earlier parent above)
      · obtain rfl := List.mem_singleton.mp last
        exact List.mem_append_right _ above
    apart := by
      rw [extracted.paths]
      refine List.pairwise_append.mpr ⟨sound.apart, List.pairwise_singleton _ _, fun first member second last => ?_⟩
      obtain rfl := List.mem_singleton.mp last
      exact apart first member }

theorem assertLocalHeader_ends (ready : Ready s) :
    Ends (assertLocalHeader entry) (fun _ t => t = s) (fun _ => Broken) s := by
  refine .bind (ends_readCall (ready.refuse (by decide) (by decide)) fun _ => ?_)
  refine .bind (ends_require (fun _ => ?_) ready.broken)
  refine .bind (ends_require (fun _ => ?_) ready.broken)
  refine .bind (ends_readCall (ready.refuse (by decide) (by decide)) fun _ => ?_)
  refine .bind (ends_require (fun _ => ?_) ready.broken)
  exact ends_require (fun _ => rfl) ready.broken

/-- The name of an entry is its name in the archive, as `normalizeEntry` has it. -/
def Named (request : ExtractRequest) (entry : ZipEntry) (normalized : Text) : Prop :=
  normalizeEntry request.limits entry.fileName = .ok normalized

theorem extractEntry_ends (sound : ExtractionSound request base names x s) :
    Ends (extractEntry request entrypoint entry x)
      (fun y t => ∃ normalized, Named request entry normalized ∧
        ExtractionSound request base (names ++ [normalized]) y t) (fun _ => Broken) s := by
  have stops := sound.ready.broken
  refine .bind ((assertLocalHeader_ends sound.ready).mono ?_ fun _ _ broken => broken)
  rintro _ _ rfl
  refine .bind (ends_ofExcept (fun normalized named => ?_) fun _ _ => stops)
  obtain ⟨-, well⟩ := normalizeEntry_eq_ok.mp named
  refine .bind (ends_require (fun unseen => ?_) stops)
  refine .bind (ends_ofExcept (fun recorded kept => ?_) fun _ _ => stops)
  refine .bind (ends_ofExcept (fun _ _ => ?_) fun _ _ => stops)
  dsimp only
  split
  · next directory => exact ⟨normalized, named, sound.directory unseen kept well directory⟩
  · next file =>
    refine (extractFile_ends sound.ready ?_).mono ?_ fun _ _ broken => broken
    · exact sound.total
    · rintro y t ⟨content, extracted⟩
      exact ⟨normalized, named, sound.file unseen kept well (Bool.eq_false_iff.mpr file) extracted⟩

theorem extractEntries_ends {archive : List ZipEntry} (sound : ExtractionSound request base names x s) :
    Ends (extractEntries request entrypoint archive x)
      (fun y t => ∃ later, List.Forall₂ (Named request) archive later ∧
        ExtractionSound request base (names ++ later) y t) (fun _ => Broken) s := by
  induction archive generalizing names x s with
  | nil =>
    refine .bind (ends_changeCall (sound.ready.refuse (by decide) (by decide)) fun _ => ?_)
    exact ⟨[], .nil, by rwa [List.append_nil]⟩
  | cons entry rest ih =>
    refine .bind (ends_changeCall (sound.ready.refuse (by decide) (by decide)) fun _ => ?_)
    refine .bind (ends_require (fun _ => ?_) sound.ready.broken)
    have counted : ExtractionSound request base names { x with entries := x.entries + 1 } s := { sound with }
    refine .bind ((extractEntry_ends counted).mono ?_ fun _ _ broken => broken)
    rintro y t ⟨normalized, named, grown⟩
    refine (ih grown).mono ?_ fun _ _ broken => broken
    rintro z u ⟨later, named', whole⟩
    exact ⟨normalized :: later, .cons named named', by rwa [List.append_cons]⟩

end Loop

section Accepted

variable {base : List (List String × Octets)} {names : List Text} {archive : List ZipEntry} {entrypoint : Option Text}
  {s t : ExtractState} {result : ExtractResult}

/-- The loop has come to its end. -/
def Completed (request : ExtractRequest) (archive : List ZipEntry) (base : List (List String × Octets))
    (result : ExtractResult) (t : ExtractState) : Prop :=
  ∃ names x, List.Forall₂ (Named request) archive names ∧ ExtractionSound request base names x t ∧
    result = { files := x.files, bytes := x.bytes, paths := x.paths }

theorem extractArchive_ends (ready : Ready s) :
    Ends (extractArchive request entrypoint archive) (Completed request archive s.files) (fun _ => Broken) s := by
  refine .bind ((extractEntries_ends (.new ready)).mono ?_ fun _ _ broken => broken)
  rintro x t ⟨names, named, sound⟩
  have done : Completed request archive s.files { files := x.files, bytes := x.bytes, paths := x.paths } t :=
    ⟨names, x, named, sound, rfl⟩
  cases entrypoint with
  | none => exact .bind (ends_require (fun _ => done) sound.ready.broken)
  | some path => exact .bind (ends_require (fun _ => done) sound.ready.broken)

end Accepted

end LatexRenderer
