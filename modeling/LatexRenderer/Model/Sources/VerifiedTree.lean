import LatexRenderer.Machine.Octets
import LatexRenderer.Model.Maps
import LatexRenderer.Model.Sources.ZipExtraction
import LatexRenderer.Model.Texts

/-! # Verifying the tree of a source

`captureValidatedSourceTree` describes a tree that was just extracted, and `verifyValidatedSourceTree` compares a tree with
such a description. Both walk the whole tree with `inventory`. A tree does not change while it is walked.
-/

namespace LatexRenderer

open Machine

mutual

/-- What is at a path: a file with its permissions, the number of its names and its device, a directory, or anything else,
such as a link. -/
inductive TreeNode where
  | file (mode links device : Nat) (content : Octets)
  | directory (mode device : Nat) (entries : TreeEntries)
  | special (device : Nat)

/-- The entries of a directory in the order in which they are read. -/
inductive TreeEntries where
  | nil
  | cons (name : Text) (node : TreeNode) (rest : TreeEntries)

end

def TreeNode.device : TreeNode → Nat
  | .file _ _ device _ => device
  | .directory _ device _ => device
  | .special device => device

/-- The names of a directory. -/
def TreeEntries.names : TreeEntries → List Text
  | .nil => []
  | .cons name _ rest => name :: rest.names

mutual

/-- The names in every directory differ, are not empty and have no slash. -/
def TreeNode.Named : TreeNode → Prop
  | .file _ _ _ _ => True
  | .directory _ _ entries => entries.names.Nodup ∧ entries.Named
  | .special _ => True

/-- The names are those of files, here and below. -/
def TreeEntries.Named : TreeEntries → Prop
  | .nil => True
  | .cons name node rest => ('/' ∉ name ∧ name ≠ []) ∧ node.Named ∧ rest.Named

end

/-- A tree, with the real path of its root and the mount points of the process. -/
structure SourceTree where
  canonical : Text
  mounts : List Text
  root : TreeNode
  named : root.Named

/-- The variables of the walk; a directory that is to be read is its path with its entries. -/
structure TreeWalk where
  entries : Nat
  bytes : Nat
  files : List (Text × Nat × Octets)
  directories : List (Text × Nat)
  pending : List (List Text × TreeEntries)

/-- What a walk is told: the limits, and lower case as the runtime has it. -/
structure TreeCheck where
  limits : ZipLimits
  toLowerCase : Text → Text

/-- One entry of a directory. -/
def readTreeEntry (check : TreeCheck) (device : Nat) (parts : List Text) (node : TreeNode) (x : TreeWalk) :
    Except ZipError TreeWalk := do
  let path := joinText '/' parts
  demand (x.entries + 1 ≤ check.limits.maxEntries) .treeMismatch
  demand (node.device = device ∧ '\\' ∉ path ∧ (splitText '/' path).length ≤ check.limits.maxDepth) .treeMismatch
  match node with
  | .directory mode _ entries =>
    pure { x with
      entries := x.entries + 1
      directories := x.directories ++ [(path, mode)]
      pending := x.pending ++ [(parts, entries)] }
  | .file mode links _ content =>
    let _ ← validateSourceFilePath check.toLowerCase check.limits path
    demand (links = 1 ∧ content.length ≤ check.limits.maxFileBytes ∧
      x.bytes + content.length ≤ check.limits.maxExtractedBytes ∧ x.files.length < check.limits.maxFiles) .treeMismatch
    pure { x with
      entries := x.entries + 1
      bytes := x.bytes + content.length
      files := x.files ++ [(path, mode, content)] }
  | .special _ =>
    let _ ← validateSourceFilePath check.toLowerCase check.limits path
    throw .treeMismatch

/-- The loop over the entries of a directory. -/
def readTreeEntries (check : TreeCheck) (device : Nat) (directory : List Text) : TreeEntries → TreeWalk →
    Except ZipError TreeWalk
  | .nil, x => .ok x
  | .cons name node rest, x => do
    let y ← readTreeEntry check device (directory ++ [name]) node x
    readTreeEntries check device directory rest y

/-- The loop over the directories, last first; so many may be read. -/
def walkTree (check : TreeCheck) (device : Nat) : Nat → TreeWalk → Except ZipError TreeWalk
  | 0, x => if x.pending = [] then .ok x else .error .treeMismatch
  | fuel + 1, x =>
    match x.pending.getLast? with
    | none => .ok x
    | some (directory, entries) => do
      let y ← readTreeEntries check device directory entries { x with pending := x.pending.dropLast }
      walkTree check device fuel y

/-- The comparison of `sort`. -/
def pathBefore {β : Type} (a b : Text × β) : Bool := unitsBefore (utf16Units a.1) (utf16Units b.1)

/-- What `inventory` gives. -/
structure TreeInventory where
  files : List (Text × Nat × Octets)
  directories : List (Text × Nat)
  bytes : Nat
deriving DecidableEq

/-- `inventory`. Every directory but the root is an entry that was counted. -/
def inventory (check : TreeCheck) (tree : SourceTree) : Except ZipError TreeInventory :=
  match tree.root with
  | .directory mode device entries => do
    demand (∀ mount ∈ tree.mounts, mount ≠ tree.canonical ∧ ¬ tree.canonical ++ ['/'] <+: mount) .treeMismatch
    let x ← walkTree check device (check.limits.maxEntries + 1)
      { entries := 0, bytes := 0, files := [], directories := [([], mode)], pending := [([], entries)] }
    pure {
      files := x.files.mergeSort pathBefore
      directories := x.directories.mergeSort pathBefore
      bytes := x.bytes }
  | _ => .error .treeMismatch

structure VerifiedSourceTree (δ : Type) where
  version : Nat
  files : List (Text × Nat × Nat × δ)
  directories : List (Text × Nat)
  bytes : Nat
deriving DecidableEq

section Verification

variable {δ : Type} [DecidableEq δ]

def captureValidatedSourceTree (sha256 : Octets → δ) (check : TreeCheck) (tree : SourceTree) (extracted : ExtractResult) :
    Except ZipError (VerifiedSourceTree δ) := do
  let found ← inventory check tree
  demand (found.files.length = extracted.files ∧ found.bytes = extracted.bytes ∧
    extracted.paths.dedup.length = found.files.length ∧ (found.files.map Prod.fst).Nodup ∧
    ∀ file ∈ found.files, file.1 ∈ extracted.paths) .treeMismatch
  pure {
    version := 1
    files := found.files.map fun file => (file.1, file.2.2.length, file.2.1, sha256 file.2.2)
    directories := found.directories
    bytes := found.bytes }

def verifyValidatedSourceTree (sha256 : Octets → δ) (check : TreeCheck) (tree : SourceTree)
    (manifest : VerifiedSourceTree δ) (entrypoint : Text) : Except ZipError ExtractResult := do
  demand (manifest.version = 1 ∧ manifest.files.length ≤ check.limits.maxFiles ∧
    manifest.directories.length ≤ check.limits.maxEntries) .treeMismatch
  let found ← inventory check tree
  let expected := manifest.files.foldl (fun entries file => mapSet file.1 file.2 entries) []
  demand (expected.length = manifest.files.length ∧ found.files.length = manifest.files.length ∧
    found.bytes = manifest.bytes ∧ found.directories = manifest.directories) .treeMismatch
  demand (∀ file ∈ found.files,
    mapGet? file.1 expected = some (file.2.2.length, file.2.1, sha256 file.2.2)) .treeMismatch
  let requested ← validateEntrypointPath check.toLowerCase check.limits entrypoint
  demand (requested ∈ expected.map Prod.fst) .verifiedEntrypointMissing
  pure { files := found.files.length, bytes := found.bytes, paths := found.files.map Prod.fst }

end Verification

end LatexRenderer
