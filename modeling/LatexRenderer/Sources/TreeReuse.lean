import LatexRenderer.Sources.ArchiveNames
import LatexRenderer.Sources.VerifiedTree

/-! # Which trees are reused

A tree that is described by a captured description is accepted exactly if it has the same items on one file system, and
the entrypoint that is asked for. What is told of it is what extraction told, with the paths in order.
-/

namespace LatexRenderer

open Machine

variable {δ : Type} [DecidableEq δ] {sha256 : Octets → δ} {check : TreeCheck} {tree other : SourceTree}
  {extracted result : ExtractResult} {manifest : VerifiedSourceTree δ} {entrypoint : Text}

omit [DecidableEq δ] in
/-- Files that are described alike are the same where digests do not collide. -/
theorem files_perm (collisionFree : NoCollision sha256 tree other) (count : other.files.length = tree.files.length)
    (described : ∀ file ∈ other.files, describe sha256 file ∈ tree.files.map (describe sha256)) :
    tree.files.Perm other.files := by
  have within : other.files ⊆ tree.files := by
    intro file member
    obtain ⟨prior, there, same⟩ := List.mem_map.mp (described file member)
    obtain ⟨path, mode, content⟩ := file
    obtain ⟨path', mode', content'⟩ := prior
    simp only [describe, Prod.mk.injEq] at same
    obtain ⟨rfl, -, rfl, digest⟩ := same
    obtain rfl : content' = content := collisionFree _ there _ member digest
    exact there
  exact ((List.Nodup.of_map _ other.files_nodup).subperm within |>.perm_of_length_le count.ge).symm

theorem verified_same (captured : captureValidatedSourceTree sha256 check tree extracted = .ok manifest)
    (collisionFree : NoCollision sha256 tree other)
    (verified : verifyValidatedSourceTree sha256 check other manifest entrypoint = .ok result) :
    other.OneFileSystem ∧ SameItems tree other ∧ HasEntrypoint check entrypoint tree ∧ result = other.told := by
  obtain ⟨well, -, -, -, rfl⟩ := capture_eq_ok captured
  obtain ⟨-, well', count, -, listed, described, requested, rfl⟩ := (verify_eq_ok well).mp verified
  have files := files_perm collisionFree count described
  have directories : tree.directories.Perm other.directories := by
    have first : tree.listed.directories.Perm tree.directories := List.mergeSort_perm _ _
    have second : other.listed.directories.Perm other.directories := List.mergeSort_perm _ _
    exact first.symm.trans (listed ▸ second)
  exact ⟨well'.system, sameItems_of_lists well well' files directories, requested, rfl⟩

theorem same_verified (captured : captureValidatedSourceTree sha256 check tree extracted = .ok manifest)
    (system : other.OneFileSystem) (same : SameItems tree other) (requested : HasEntrypoint check entrypoint tree) :
    verifyValidatedSourceTree sha256 check other manifest entrypoint = .ok other.told := by
  obtain ⟨well, -, -, -, rfl⟩ := capture_eq_ok captured
  have files : tree.files.Perm other.files := same.perm.filterMap itemFile?
  have directories : tree.directories.Perm other.directories := same.perm.filterMap itemDirectory?
  have some : tree.files ≠ [] := by
    obtain ⟨path, -, there⟩ := requested
    exact fun none => by simp [none] at there
  refine (verify_eq_ok well).mpr ⟨well.directories_le some, well.transfer same system, files.length_eq.symm,
    (totalBytes_perm files).symm, (mergeSort_eq tree.directories_nodup directories).symm, fun file member => ?_, requested,
    rfl⟩
  exact List.mem_map_of_mem (files.mem_iff.mpr member)

omit [DecidableEq δ] in
/-- What is told of an accepted tree is what extraction told, with the paths in order. -/
theorem told_of_extracted (captured : captureValidatedSourceTree sha256 check tree extracted = .ok manifest)
    (same : SameItems tree other) :
    other.told.files = extracted.files ∧ other.told.bytes = extracted.bytes ∧
      other.told.paths.Perm extracted.paths.dedup ∧
      other.told.paths.Pairwise fun first second => unitsBefore (utf16Units first) (utf16Units second) = true := by
  obtain ⟨-, count, bytes, paths, -⟩ := capture_eq_ok captured
  have files : tree.files.Perm other.files := same.perm.filterMap itemFile?
  have permuted : other.listed.files.Perm other.files := List.mergeSort_perm _ _
  refine ⟨files.length_eq.symm.trans count, (totalBytes_perm files).symm.trans bytes, ?_, ?_⟩
  · exact ((permuted.trans files.symm).map Prod.fst).trans paths
  · exact List.pairwise_map.mpr (List.pairwise_mergeSort pathBefore_trans pathBefore_total other.files)

/-- A captured description is accepted for exactly the trees with the same items, on one file system, that have the
entrypoint; and what is told of them is what extraction told, with the paths in order. -/
theorem verifiedTree_iff (sha256 : Octets → δ) (check : TreeCheck) (tree other : SourceTree) (extracted : ExtractResult)
    (manifest : VerifiedSourceTree δ) (entrypoint : Text)
    (captured : captureValidatedSourceTree sha256 check tree extracted = .ok manifest)
    (collisionFree : NoCollision sha256 tree other) :
    ((∃ result, verifyValidatedSourceTree sha256 check other manifest entrypoint = .ok result) ↔
      other.OneFileSystem ∧ SameItems tree other ∧ HasEntrypoint check entrypoint tree) ∧
    ∀ result, verifyValidatedSourceTree sha256 check other manifest entrypoint = .ok result →
      result.files = extracted.files ∧ result.bytes = extracted.bytes ∧
      (extracted.files = extracted.paths.length → result.paths.Perm extracted.paths) ∧
      result.paths.Pairwise fun first second => unitsBefore (utf16Units first) (utf16Units second) = true := by
  refine ⟨⟨fun ⟨result, verified⟩ => ?_, fun ⟨system, same, requested⟩ => ?_⟩, fun result verified => ?_⟩
  · obtain ⟨system, same, requested, -⟩ := verified_same captured collisionFree verified
    exact ⟨system, same, requested⟩
  · exact ⟨_, same_verified captured system same requested⟩
  · obtain ⟨-, same, -, rfl⟩ := verified_same captured collisionFree verified
    obtain ⟨files, bytes, paths, sorted⟩ := told_of_extracted captured same
    refine ⟨files, bytes, fun counted => ?_, sorted⟩
    have length : extracted.paths.dedup.length = extracted.paths.length := by
      rw [← paths.length_eq, ← counted, ← files]
      show (other.listed.files.map Prod.fst).length = other.files.length
      rw [List.length_map]
      exact (List.mergeSort_perm other.files pathBefore).length_eq
    rw [(List.dedup_sublist extracted.paths).eq_of_length length] at paths
    exact paths

section Example

/-- The check of a tree with the limits of an archive. -/
def plainCheck : TreeCheck where
  limits := plainRequest.limits
  toLowerCase := List.map Char.toLower

/-- Two files of one octet. -/
def plainEntries : TreeEntries :=
  .cons "a.tex".toList (.file 0o644 1 1 [0x79]) (.cons "main.tex".toList (.file 0o644 1 1 [0x78]) .nil)

/-- A tree of them. -/
def plainTree (mounts : List Text) : SourceTree where
  canonical := "/srv/input".toList
  mounts := mounts
  root := .directory 0o775 1 plainEntries
  named := ⟨by decide, ⟨by decide, by decide⟩, trivial, ⟨by decide, by decide⟩, trivial, trivial⟩

/-- What extraction tells of it: the paths in the order of the archive. -/
def plainExtracted : ExtractResult where
  files := 2
  bytes := 2
  paths := ["main.tex".toList, "a.tex".toList]

/-- What the inventory of it is. -/
def plainInventory : TreeInventory where
  files := [("a.tex".toList, 0o644, [0x79]), ("main.tex".toList, 0o644, [0x78])]
  directories := [([], 0o775)]
  bytes := 2

/-- What is captured of it. -/
def plainManifest : VerifiedSourceTree Octets where
  version := 1
  files := plainInventory.files.map (describe id)
  directories := plainInventory.directories
  bytes := 2

theorem plain_inventory : inventory plainCheck (plainTree []) = .ok plainInventory := by
  have walked : walkTree plainCheck 1 21
      { entries := 0, bytes := 0, files := [], directories := [([], 0o775)], pending := [([], plainEntries)] } = .ok {
        entries := 2
        bytes := 2
        files := plainInventory.files
        directories := plainInventory.directories
        pending := [] } := rfl
  have files : plainInventory.files.mergeSort pathBefore = plainInventory.files :=
    List.mergeSort_of_pairwise (by decide)
  have directories : plainInventory.directories.mergeSort pathBefore = plainInventory.directories :=
    List.mergeSort_of_pairwise (by decide)
  refine demand_bind_eq_ok.mpr ⟨by decide, bind_eq_ok.mpr ⟨_, walked, ?_⟩⟩
  dsimp only
  rw [files, directories]
  rfl

theorem plain_captured : captureValidatedSourceTree id plainCheck (plainTree []) plainExtracted = .ok plainManifest :=
  bind_eq_ok.mpr ⟨_, plain_inventory, demand_bind_eq_ok.mpr ⟨by decide, rfl⟩⟩

theorem plain_entrypoint : HasEntrypoint plainCheck "main.tex".toList (plainTree []) :=
  ⟨"main.tex".toList, by decide, by decide⟩

/-- A tree is accepted for its own description. -/
theorem verifiedTree_iff_plain :
    ((∃ result, verifyValidatedSourceTree id plainCheck (plainTree []) plainManifest "main.tex".toList = .ok result) ↔
      (plainTree []).OneFileSystem ∧ SameItems (plainTree []) (plainTree []) ∧
        HasEntrypoint plainCheck "main.tex".toList (plainTree [])) ∧
    ∀ result, verifyValidatedSourceTree id plainCheck (plainTree []) plainManifest "main.tex".toList = .ok result →
      result.files = 2 ∧ result.bytes = 2 ∧ (2 = plainExtracted.paths.length → result.paths.Perm plainExtracted.paths) ∧
      result.paths.Pairwise fun first second => unitsBefore (utf16Units first) (utf16Units second) = true :=
  verifiedTree_iff id plainCheck (plainTree []) (plainTree []) plainExtracted plainManifest "main.tex".toList plain_captured
    fun _ _ _ _ same => same

/-- The paths that are told are not in the order of extraction; and a tree with the same items is not accepted without the
entrypoint that is asked for, nor where it is a mount point. -/
theorem verifiedTree_deviates :
    (¬ ∀ (check : TreeCheck) (tree : SourceTree) (extracted result : ExtractResult) (manifest : VerifiedSourceTree Octets)
      (entrypoint : Text), captureValidatedSourceTree id check tree extracted = .ok manifest →
        verifyValidatedSourceTree id check tree manifest entrypoint = .ok result → result.paths = extracted.paths) ∧
    (¬ ∀ (check : TreeCheck) (tree : SourceTree) (extracted : ExtractResult) (manifest : VerifiedSourceTree Octets)
      (entrypoint : Text), captureValidatedSourceTree id check tree extracted = .ok manifest →
        ∃ result, verifyValidatedSourceTree id check tree manifest entrypoint = .ok result) ∧
    ¬ ∀ (check : TreeCheck) (tree other : SourceTree) (extracted : ExtractResult) (manifest : VerifiedSourceTree Octets)
      (entrypoint : Text), captureValidatedSourceTree id check tree extracted = .ok manifest → SameItems tree other →
        HasEntrypoint check entrypoint tree →
        ∃ result, verifyValidatedSourceTree id check other manifest entrypoint = .ok result := by
  have collisionFree : ∀ tree other : SourceTree, NoCollision id tree other := fun _ _ _ _ _ _ same => same
  refine ⟨fun all => ?_, fun all => ?_, fun all => ?_⟩
  · have system := (capture_eq_ok plain_captured).1.system
    have accepted := same_verified plain_captured system (fun _ => Iff.rfl) plain_entrypoint
    have sorted := (told_of_extracted plain_captured fun _ => Iff.rfl).2.2.2
    rw [all _ _ _ _ _ _ plain_captured accepted] at sorted
    exact absurd sorted (by decide)
  · obtain ⟨result, accepted⟩ := all _ _ _ _ "b.tex".toList plain_captured
    obtain ⟨-, -, ⟨requested, valid, there⟩, -⟩ := verified_same plain_captured (collisionFree _ _) accepted
    have path : validateEntrypointPath plainCheck.toLowerCase plainCheck.limits "b.tex".toList = .ok "b.tex".toList := by
      decide
    obtain rfl := Except.ok.inj (valid.symm.trans path)
    exact absurd there (by decide)
  · obtain ⟨result, accepted⟩ := all plainCheck (plainTree []) (plainTree ["/srv/input".toList]) _ _ _ plain_captured
      (fun _ => Iff.rfl) plain_entrypoint
    obtain ⟨system, -⟩ := verified_same plain_captured (collisionFree _ _) accepted
    exact (system.unmounted _ List.mem_cons_self).1 rfl

end Example

end LatexRenderer
