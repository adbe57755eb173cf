import Mathlib.Data.List.Perm.Subperm
import LatexRenderer.Sources.TreeWalks

/-! # What a description of a tree accepts

A description that was captured from a tree is accepted for another tree exactly if both have the same items: the same
directories and files, with the same permissions and contents, and nothing else.
-/

namespace LatexRenderer

open Machine

variable {check : TreeCheck} {tree other : SourceTree}

section Items

/-- What a tree has at a path: anything but a directory and a file with one name is something else. -/
inductive TreeItem where
  | file (mode : Nat) (content : Octets)
  | directory (mode : Nat)
  | foreign
deriving DecidableEq

/-- The item that a node is. -/
def TreeNode.item : TreeNode → TreeItem
  | .file mode links _ content => if links = 1 then .file mode content else .foreign
  | .directory mode _ _ => .directory mode
  | .special _ => .foreign

/-- What is below the root. -/
def SourceTree.found (tree : SourceTree) : List Found := tree.root.listing []

/-- The items of a tree with their paths. -/
def SourceTree.items (tree : SourceTree) : List (Text × TreeItem) :=
  ([], tree.root.item) :: tree.found.map fun found => (joinText '/' found.1, found.2.item)

/-- The files among items. -/
def itemFile? : Text × TreeItem → Option (Text × Nat × Octets)
  | (path, .file mode content) => some (path, mode, content)
  | _ => none

/-- The directories among items. -/
def itemDirectory? : Text × TreeItem → Option (Text × Nat)
  | (path, .directory mode) => some (path, mode)
  | _ => none

/-- The files of a tree. -/
def SourceTree.files (tree : SourceTree) : List (Text × Nat × Octets) := tree.items.filterMap itemFile?

/-- The directories of a tree. -/
def SourceTree.directories (tree : SourceTree) : List (Text × Nat) := tree.items.filterMap itemDirectory?

/-- The octets of files. -/
def totalBytes (files : List (Text × Nat × Octets)) : Nat := (files.map fun file => file.2.2.length).sum

theorem totalBytes_perm {first second : List (Text × Nat × Octets)} (same : first.Perm second) :
    totalBytes first = totalBytes second :=
  (same.map fun file : Text × Nat × Octets => file.2.2.length).sum_eq

theorem SourceTree.items_nodup (tree : SourceTree) : (tree.items.map Prod.fst).Nodup := by
  have names := TreeNode.listing_names [] tree.root tree.named
  have good : ∀ found ∈ tree.found, ∀ part ∈ found.1, GoodName part := by
    intro found member
    obtain ⟨name, later, same, parts⟩ := names found member
    rw [same]
    exact parts
  rw [SourceTree.items, List.map_cons, List.map_map]
  refine List.nodup_cons.mpr ⟨fun member => ?_, ?_⟩
  · obtain ⟨found, there, same⟩ := List.mem_map.mp member
    obtain ⟨name, later, shape, -⟩ := names found there
    have nothing : found.1 = [] := joinText_good (good found there) (fun _ never => by cases never) same
    rw [shape] at nothing
    cases nothing
  · have distinct := TreeNode.listing_nodup [] tree.root tree.named
    refine List.Nodup.map_on (fun first one second two same => ?_) (.of_map _ distinct)
    exact List.inj_on_of_nodup_map distinct one two (joinText_good (good first one) (good second two) same)

theorem keys_filterMap {β γ : Type} {f : Text × β → Option (Text × γ)} {items : List (Text × β)}
    (keeps : ∀ item file, f item = some file → file.1 = item.1) (keys : (items.map Prod.fst).Nodup) :
    ((items.filterMap f).map Prod.fst).Nodup := by
  rw [List.Nodup, List.pairwise_map] at keys ⊢
  rw [List.pairwise_filterMap]
  refine keys.imp fun {first second} apart file one file' two => ?_
  rw [keeps _ _ one, keeps _ _ two]
  exact apart

theorem SourceTree.files_nodup (tree : SourceTree) : (tree.files.map Prod.fst).Nodup := by
  refine keys_filterMap ?_ tree.items_nodup
  rintro ⟨path, _ | _ | _⟩ file same <;> cases same
  rfl

theorem SourceTree.directories_nodup (tree : SourceTree) : (tree.directories.map Prod.fst).Nodup := by
  refine keys_filterMap ?_ tree.items_nodup
  rintro ⟨path, _ | _ | _⟩ file same <;> cases same
  rfl

theorem mem_files {path : Text} {mode : Nat} {content : Octets} :
    (path, mode, content) ∈ tree.files ↔ (path, .file mode content) ∈ tree.items := by
  rw [SourceTree.files, List.mem_filterMap]
  constructor
  · rintro ⟨⟨path', _ | _ | _⟩, member, same⟩ <;> cases same
    exact member
  · intro member
    exact ⟨_, member, rfl⟩

theorem mem_directories {path : Text} {mode : Nat} :
    (path, mode) ∈ tree.directories ↔ (path, .directory mode) ∈ tree.items := by
  rw [SourceTree.directories, List.mem_filterMap]
  constructor
  · rintro ⟨⟨path', _ | _ | _⟩, member, same⟩ <;> cases same
    exact member
  · intro member
    exact ⟨_, member, rfl⟩

end Items

section Inventory

/-- No mount point is at or below the root, and everything is on its device. -/
structure SourceTree.OneFileSystem (tree : SourceTree) : Prop where
  unmounted : ∀ mount ∈ tree.mounts, mount ≠ tree.canonical ∧ ¬ tree.canonical ++ ['/'] <+: mount
  device : ∀ found ∈ tree.found, found.2.device = tree.root.device

/-- What `inventory` accepts. -/
structure SourceTree.Admissible (check : TreeCheck) (tree : SourceTree) : Prop where
  system : tree.OneFileSystem
  directory : ∃ mode, tree.root.item = .directory mode
  fits : ∀ found ∈ tree.found, Fits check tree.root.device found
  entries : tree.found.length ≤ check.limits.maxEntries
  bytes : totalBytes tree.files ≤ check.limits.maxExtractedBytes
  few : tree.files.length ≤ check.limits.maxFiles

theorem item_of_fits {device : Nat} {found : Found} (fits : Fits check device found) :
    fileOf? found = itemFile? (joinText '/' found.1, found.2.item) ∧
      directoryOf? found = itemDirectory? (joinText '/' found.1, found.2.item) ∧ found.2.item ≠ .foreign := by
  obtain ⟨parts, node⟩ := found
  cases node with
  | file mode links device' content =>
    have single := fits.kind.1
    subst single
    exact ⟨rfl, rfl, by simp [TreeNode.item]⟩
  | directory mode device' entries => exact ⟨rfl, rfl, by simp [TreeNode.item]⟩
  | special device' => exact fits.kind.elim

/-- What a walk lists of nodes that fit is what their items are. -/
theorem filterMap_of_fits {device : Nat} {found : List Found} (fits : ∀ item ∈ found, Fits check device item) :
    found.filterMap fileOf? = (found.map fun item => (joinText '/' item.1, item.2.item)).filterMap itemFile? ∧
      found.filterMap directoryOf? =
        (found.map fun item => (joinText '/' item.1, item.2.item)).filterMap itemDirectory? := by
  rw [List.filterMap_map, List.filterMap_map]
  exact ⟨List.filterMap_congr fun item member => (item_of_fits (fits item member)).1,
    List.filterMap_congr fun item member => (item_of_fits (fits item member)).2.1⟩

/-- What the inventory of a tree is. -/
def SourceTree.listed (tree : SourceTree) : TreeInventory where
  files := tree.files.mergeSort pathBefore
  directories := tree.directories.mergeSort pathBefore
  bytes := totalBytes tree.files

section Root

variable {canonical : Text} {mounts : List Text} {mode device : Nat} {entries : TreeEntries}
  {named : (TreeNode.directory mode device entries).Named}

/-- What a walk lists below the root is what the items are. -/
theorem listed_of_fits (fits : ∀ found ∈ entries.listing [], Fits check device found) :
    (entries.listing []).filterMap fileOf? = (SourceTree.mk canonical mounts (.directory mode device entries) named).files ∧
      ([], mode) :: (entries.listing []).filterMap directoryOf? =
        (SourceTree.mk canonical mounts (.directory mode device entries) named).directories := by
  obtain ⟨files, directories⟩ := filterMap_of_fits fits
  exact ⟨files, congrArg _ directories⟩

/-- The walk of a root starts with nothing counted. -/
theorem within_start : Within check
    { entries := 0, bytes := 0, files := [], directories := [([], mode)], pending := [([], entries)] } :=
  ⟨Nat.zero_le _, Nat.zero_le _, Nat.zero_le _⟩

theorem pendingBelow_root : pendingBelow [([], entries)] = entries.listing [] := List.append_nil _

/-- What is accepted is admissible, and what is found is what is listed. -/
theorem inventory_sound {found : TreeInventory}
    (success : inventory check ⟨canonical, mounts, .directory mode device entries, named⟩ = .ok found) :
    (SourceTree.mk canonical mounts (.directory mode device entries) named).Admissible check ∧
      found = (SourceTree.mk canonical mounts (.directory mode device entries) named).listed := by
  obtain ⟨unmounted, walked⟩ := demand_bind_eq_ok.mp success
  obtain ⟨x, walked, returned⟩ := bind_eq_ok.mp walked
  obtain ⟨listing, all, fits, within, rfl⟩ := walkTree_sound within_start walked
  rw [pendingBelow_root] at all
  have every : ∀ found ∈ entries.listing [], Fits check device found := fun found member =>
    fits found (all.mem_iff.mpr member)
  obtain ⟨files, directories⟩ := @listed_of_fits check canonical mounts mode device entries named every
  have permuted := all.filterMap fileOf?
  have permuted' := (all.filterMap directoryOf?).cons ([], mode)
  rw [files] at permuted
  rw [directories] at permuted'
  have bytes := totalBytes_perm permuted
  refine ⟨⟨⟨unmounted, fun found member => (every found member).device⟩, ⟨mode, rfl⟩, every, ?_, ?_, ?_⟩, ?_⟩
  · have few := within.entries
    show (entries.listing []).length ≤ _
    rw [← all.length_eq]
    simpa [TreeWalk.extend] using few
  · rw [← bytes, totalBytes]
    simpa [TreeWalk.extend] using within.bytes
  · rw [← permuted.length_eq]
    simpa [TreeWalk.extend] using within.files
  · cases returned
    rw [SourceTree.listed, ← bytes, mergeSort_eq (SourceTree.files_nodup _) permuted.symm,
      mergeSort_eq (SourceTree.directories_nodup _) permuted'.symm]
    simp [TreeWalk.extend, totalBytes]

theorem inventory_complete (well : (SourceTree.mk canonical mounts (.directory mode device entries) named).Admissible check) :
    ∃ found, inventory check ⟨canonical, mounts, .directory mode device entries, named⟩ = .ok found := by
  obtain ⟨files, -⟩ := @listed_of_fits check canonical mounts mode device entries named well.fits
  have few : (entries.listing []).length ≤ check.limits.maxEntries := well.entries
  obtain ⟨x, walked⟩ : ∃ x, walkTree check device (check.limits.maxEntries + 1)
      { entries := 0, bytes := 0, files := [], directories := [([], mode)], pending := [([], entries)] } = .ok x := by
    refine walkTree_complete within_start ?_ ⟨?_, ?_, ?_⟩ ?_ <;> dsimp only <;> rw [pendingBelow_root]
    · exact well.fits
    · simpa [TreeWalk.extend] using few
    · simpa [TreeWalk.extend, files, totalBytes] using well.bytes
    · simpa [TreeWalk.extend, files] using well.few
    · have count := List.length_filterMap_le subdirectory? (entries.listing [])
      rw [List.length_singleton]
      omega
  exact ⟨_, demand_bind_eq_ok.mpr ⟨well.system.unmounted, bind_eq_ok.mpr ⟨x, walked, rfl⟩⟩⟩

end Root

theorem inventory_eq_ok {found : TreeInventory} :
    inventory check tree = .ok found ↔ tree.Admissible check ∧ found = tree.listed := by
  obtain ⟨canonical, mounts, root, named⟩ := tree
  cases root with
  | file mode links device content =>
    constructor
    · intro never
      cases never
    · rintro ⟨well, -⟩
      obtain ⟨mode', same⟩ := well.directory
      simp only [TreeNode.item] at same
      split at same <;> cases same
  | special device =>
    constructor
    · intro never
      cases never
    · rintro ⟨well, -⟩
      obtain ⟨mode', same⟩ := well.directory
      cases same
  | directory mode device entries =>
    constructor
    · exact inventory_sound
    · rintro ⟨well, rfl⟩
      obtain ⟨found, success⟩ := inventory_complete well
      rw [success, (inventory_sound success).2]

end Inventory

section Sameness

/-- Two trees have the same items. -/
def SameItems (tree other : SourceTree) : Prop := ∀ item, item ∈ tree.items ↔ item ∈ other.items

theorem SameItems.perm (same : SameItems tree other) : tree.items.Perm other.items :=
  (List.perm_ext_iff_of_nodup (.of_map _ tree.items_nodup) (.of_map _ other.items_nodup)).mpr same

theorem SourceTree.Admissible.not_foreign (well : tree.Admissible check) {path : Text} :
    (path, TreeItem.foreign) ∉ tree.items := by
  intro member
  rcases List.mem_cons.mp member with root | below
  · obtain ⟨mode, directory⟩ := well.directory
    rw [directory] at root
    cases root
  · obtain ⟨found, there, same⟩ := List.mem_map.mp below
    exact (item_of_fits (well.fits found there)).2.2 (congrArg Prod.snd same)

/-- Trees with the same files and the same directories have the same items. -/
theorem sameItems_of_lists (one : tree.Admissible check) (two : other.Admissible check)
    (files : tree.files.Perm other.files) (directories : tree.directories.Perm other.directories) :
    SameItems tree other := by
  rintro ⟨path, _ | _ | _⟩
  · rw [← mem_files, ← mem_files, files.mem_iff]
  · rw [← mem_directories, ← mem_directories, directories.mem_iff]
  · exact iff_of_false one.not_foreign two.not_foreign

/-- Whether a node fits is told by its path, its item and its device. -/
theorem fits_of_item {device device' : Nat} {first second : Found} (fits : Fits check device first)
    (path : joinText '/' first.1 = joinText '/' second.1) (item : first.2.item = second.2.item)
    (here : second.2.device = device') : Fits check device' second := by
  obtain ⟨parts, node⟩ := first
  obtain ⟨parts', node'⟩ := second
  dsimp only at path item here
  refine ⟨here, path ▸ fits.backslash, path ▸ fits.depth, ?_⟩
  have kind := fits.kind
  cases node with
  | special device => exact kind.elim
  | directory mode device entries =>
    cases node' with
    | directory mode' device' entries' => trivial
    | special device' => cases item
    | file mode' links' device' content' =>
      simp only [TreeNode.item] at item
      split at item <;> cases item
  | file mode links device content =>
    obtain ⟨single, short, accepted⟩ := kind
    simp only [TreeNode.item, if_pos single] at item
    cases node' with
    | directory mode' device' entries' => cases item
    | special device' => cases item
    | file mode' links' device' content' =>
      dsimp only at item
      split at item
      · next single' =>
        cases item
        exact ⟨single', short, path ▸ accepted⟩
      · cases item

/-- Trees with the same items have the same root, and the same below it. -/
theorem SameItems.root (same : SameItems tree other) : tree.root.item = other.root.item := by
  have here := (same _).mp (List.mem_cons_self : ([], tree.root.item) ∈ tree.items)
  have there : ([], other.root.item) ∈ other.items := List.mem_cons_self
  exact congrArg Prod.snd (List.inj_on_of_nodup_map other.items_nodup here there rfl)

theorem SameItems.below (same : SameItems tree other) {found : Found} (member : found ∈ other.found) :
    ∃ prior ∈ tree.found, joinText '/' prior.1 = joinText '/' found.1 ∧ prior.2.item = found.2.item := by
  have tail : (joinText '/' found.1, found.2.item) ∈ other.found.map fun found => (joinText '/' found.1, found.2.item) :=
    List.mem_map_of_mem member
  rcases List.mem_cons.mp ((same _).mpr (List.mem_cons_of_mem _ tail)) with root | below
  · have apart := (List.nodup_cons.mp other.items_nodup).1
    exact absurd (List.mem_map.mpr ⟨_, tail, congrArg Prod.fst root⟩) apart
  · obtain ⟨prior, there, equal⟩ := List.mem_map.mp below
    exact ⟨prior, there, congrArg Prod.fst equal, congrArg Prod.snd equal⟩

/-- What a walk accepts of a tree it accepts of one with the same items. -/
theorem SourceTree.Admissible.transfer (well : tree.Admissible check) (same : SameItems tree other)
    (system : other.OneFileSystem) : other.Admissible check := by
  have permuted := same.perm
  have files : tree.files.Perm other.files := permuted.filterMap itemFile?
  obtain ⟨mode, directory⟩ := well.directory
  exact {
    system
    directory := ⟨mode, same.root.symm.trans directory⟩
    fits := by
      intro found member
      obtain ⟨prior, there, path, item⟩ := same.below member
      exact fits_of_item (well.fits prior there) path item (system.device found member)
    entries := by
      have count := permuted.length_eq
      rw [SourceTree.items, SourceTree.items, List.length_cons, List.length_cons, List.length_map, List.length_map] at count
      have few := well.entries
      omega
    bytes := totalBytes_perm files ▸ well.bytes
    few := files.length_eq ▸ well.few }

/-- A tree has no more directories than entries if it has a file. -/
theorem SourceTree.Admissible.directories_le (well : tree.Admissible check) (some : tree.files ≠ []) :
    tree.directories.length ≤ check.limits.maxEntries := by
  have each : ∀ items : List (Text × TreeItem), (∀ path, (path, TreeItem.foreign) ∉ items) →
      (items.filterMap itemFile?).length + (items.filterMap itemDirectory?).length = items.length := by
    intro items none
    induction items with
    | nil => rfl
    | cons item rest ih =>
      have later := ih fun path member => none path (List.mem_cons_of_mem _ member)
      obtain ⟨path, _ | _ | _⟩ := item
      · simp only [List.filterMap_cons, itemFile?, itemDirectory?, List.length_cons]
        omega
      · simp only [List.filterMap_cons, itemFile?, itemDirectory?, List.length_cons]
        omega
      · exact absurd List.mem_cons_self (none path)
  have count := each tree.items fun _ => well.not_foreign
  have positive := List.length_pos_iff.mpr some
  have few := well.entries
  rw [SourceTree.items, List.length_cons, List.length_map] at count
  change tree.files.length + tree.directories.length = _ at count
  omega

end Sameness

section Verification

variable {δ : Type} {sha256 : Octets → δ}

/-- Files with the same digest in two trees have the same content. -/
def NoCollision (sha256 : Octets → δ) (tree other : SourceTree) : Prop :=
  ∀ file ∈ tree.files, ∀ second ∈ other.files, sha256 file.2.2 = sha256 second.2.2 → file.2.2 = second.2.2

/-- A file in a description. -/
def describe (sha256 : Octets → δ) (file : Text × Nat × Octets) : Text × Nat × Nat × δ :=
  (file.1, file.2.2.length, file.2.1, sha256 file.2.2)

theorem keys_describe (files : List (Text × Nat × Octets)) :
    (files.map (describe sha256)).map Prod.fst = files.map Prod.fst := by
  rw [List.map_map]
  rfl

variable [DecidableEq δ] {extracted result : ExtractResult} {entrypoint : Text} {manifest : VerifiedSourceTree δ}

omit [DecidableEq δ] in
/-- A captured tree is admissible, its paths are those that were extracted, and its description is that of its files. -/
theorem capture_eq_ok (captured : captureValidatedSourceTree sha256 check tree extracted = .ok manifest) :
    tree.Admissible check ∧ tree.files.length = extracted.files ∧ totalBytes tree.files = extracted.bytes ∧
      (tree.files.map Prod.fst).Perm extracted.paths.dedup ∧
      manifest = {
        version := 1
        files := tree.listed.files.map (describe sha256)
        directories := tree.listed.directories
        bytes := totalBytes tree.files } := by
  obtain ⟨found, success, captured⟩ := bind_eq_ok.mp captured
  obtain ⟨well, rfl⟩ := inventory_eq_ok.mp success
  obtain ⟨⟨files, bytes, size, -, listed⟩, returned⟩ := demand_bind_eq_ok.mp captured
  cases returned
  have permuted := List.mergeSort_perm tree.files pathBefore
  have length : tree.listed.files.length = tree.files.length := permuted.length_eq
  refine ⟨well, length ▸ files, bytes, ?_, rfl⟩
  have within : tree.files.map Prod.fst ⊆ extracted.paths.dedup := by
    intro path member
    obtain ⟨file, there, rfl⟩ := List.mem_map.mp member
    exact List.mem_dedup.mpr (listed file (permuted.mem_iff.mpr there))
  refine (tree.files_nodup.subperm within).perm_of_length_le ?_
  rw [List.length_map, ← length, size]

/-- What a request for an entrypoint needs of a tree. -/
def HasEntrypoint (check : TreeCheck) (entrypoint : Text) (tree : SourceTree) : Prop :=
  ∃ requested, validateEntrypointPath check.toLowerCase check.limits entrypoint = .ok requested ∧
    requested ∈ tree.files.map Prod.fst

/-- What is told about the files of a tree. -/
def SourceTree.told (tree : SourceTree) : ExtractResult where
  files := tree.files.length
  bytes := totalBytes tree.files
  paths := tree.listed.files.map Prod.fst

/-- A description is accepted for a tree that lists what it describes. -/
theorem verify_eq_ok (well : tree.Admissible check) :
    verifyValidatedSourceTree sha256 check other {
        version := 1
        files := tree.listed.files.map (describe sha256)
        directories := tree.listed.directories
        bytes := totalBytes tree.files } entrypoint = .ok result ↔
      tree.directories.length ≤ check.limits.maxEntries ∧ other.Admissible check ∧
        other.files.length = tree.files.length ∧ totalBytes other.files = totalBytes tree.files ∧
        other.listed.directories = tree.listed.directories ∧
        (∀ file ∈ other.files, describe sha256 file ∈ tree.files.map (describe sha256)) ∧
        HasEntrypoint check entrypoint tree ∧ result = other.told := by
  have permuted : tree.listed.files.Perm tree.files := List.mergeSort_perm tree.files pathBefore
  have permuted' : other.listed.files.Perm other.files := List.mergeSort_perm other.files pathBefore
  have permuted'' : tree.listed.directories.Perm tree.directories := List.mergeSort_perm tree.directories pathBefore
  have files : tree.listed.files.length = tree.files.length := permuted.length_eq
  have files' : other.listed.files.length = other.files.length := permuted'.length_eq
  have directories : tree.listed.directories.length = tree.directories.length := permuted''.length_eq
  have keys : ((tree.listed.files.map (describe sha256)).map Prod.fst).Nodup := by
    rw [keys_describe]
    exact (permuted.map Prod.fst).nodup_iff.mpr tree.files_nodup
  have expected := @foldl_mapSet _ [] (tree.listed.files.map (describe sha256)) keys
  have lookup : ∀ file, mapGet? (describe sha256 file).1 (tree.listed.files.map (describe sha256)) =
      some (describe sha256 file).2 ↔ describe sha256 file ∈ tree.files.map (describe sha256) := by
    intro file
    rw [← (permuted.map (describe sha256)).mem_iff]
    exact ⟨mapGet?_mem, mapGet?_of_mem keys⟩
  unfold verifyValidatedSourceTree
  rw [demand_bind_eq_ok, bind_eq_ok]
  dsimp only
  rw [expected, List.nil_append]
  constructor
  · rintro ⟨⟨-, few, many⟩, found, success, verified⟩
    obtain ⟨well', rfl⟩ := inventory_eq_ok.mp success
    obtain ⟨⟨-, count, bytes, same⟩, verified⟩ := demand_bind_eq_ok.mp verified
    obtain ⟨prior, verified⟩ := demand_bind_eq_ok.mp verified
    obtain ⟨requested, accepted, verified⟩ := bind_eq_ok.mp verified
    obtain ⟨there, returned⟩ := demand_bind_eq_ok.mp verified
    cases returned
    rw [List.length_map, files, files'] at count
    rw [keys_describe, (permuted.map Prod.fst).mem_iff] at there
    refine ⟨directories ▸ many, well', count, bytes, same, fun file member => (lookup file).mp ?_,
      ⟨requested, accepted, there⟩, ?_⟩
    · exact prior file (permuted'.mem_iff.mpr member)
    · rw [SourceTree.told, ← files']
      rfl
  · rintro ⟨many, well', count, bytes, same, prior, ⟨requested, accepted, there⟩, rfl⟩
    refine ⟨⟨rfl, ?_, directories ▸ many⟩, other.listed, inventory_eq_ok.mpr ⟨well', rfl⟩,
      demand_bind_eq_ok.mpr ⟨⟨rfl, ?_, bytes, same⟩, demand_bind_eq_ok.mpr ⟨fun file member => (lookup file).mpr ?_,
        bind_eq_ok.mpr ⟨requested, accepted, demand_bind_eq_ok.mpr ⟨?_, ?_⟩⟩⟩⟩⟩
    · rw [List.length_map, files]
      exact well.few
    · rw [List.length_map, files, files', count]
    · exact prior file (permuted'.mem_iff.mp member)
    · rw [keys_describe]
      exact (permuted.map Prod.fst).mem_iff.mpr there
    · rw [SourceTree.told, ← files']
      rfl

end Verification

end LatexRenderer
