import LatexRenderer.Model.Sources.ZipPaths
import LatexRenderer.Model.Texts

/-! # What an archive path may be

A name that `normalizeEntry` accepts is, with its backslashes as slashes, a relative path of plain components, and it is
accepted again as it is. The validators of requests accept nothing else; only a source path with a backslash is not what
`normalizeEntry` makes of it.
-/

namespace LatexRenderer

open Machine

variable {limits : ZipLimits} {name path value : Text}

section Characters

@[simp] theorem slashed_ne_backslash (c : Char) : slashed c ≠ '\\' := by
  unfold slashed
  split
  · decide
  · assumption

theorem slashed_of_ne {c : Char} (other : c ≠ '\\') : slashed c = c := if_neg other

@[simp] theorem controlCharacter_slashed (c : Char) : controlCharacter (slashed c) = controlCharacter c := by
  unfold slashed
  split
  · next same =>
    subst same
    decide
  · rfl

theorem map_slashed (plain : '\\' ∉ path) : path.map slashed = path := by
  refine (List.map_congr_left fun c member => ?_).trans (List.map_id _)
  exact slashed_of_ne fun same => plain (same ▸ member)

theorem not_mem_map_slashed (name : Text) : '\\' ∉ name.map slashed := by
  intro member
  obtain ⟨c, -, same⟩ := List.mem_map.mp member
  exact slashed_ne_backslash c same

end Characters

section Components

/-- A component that is a file name. -/
structure EntryPart (limits : ZipLimits) (part : Text) : Prop where
  nonempty : part ≠ []
  here : part ≠ ['.']
  up : part ≠ ['.', '.']
  short : part.length ≤ limits.maxNameLength
  bytes : byteLength part ≤ 255
  noSpace : part.getLast? ≠ some ' '
  noDot : part.getLast? ≠ some '.'
  unreserved : windowsReserved part = false

theorem checkEntryPart_eq_ok {part : Text} : checkEntryPart limits part = .ok () ↔ EntryPart limits part := by
  unfold checkEntryPart
  rw [demand_bind_eq_ok, demand_eq_ok]
  constructor
  · rintro ⟨⟨nonempty, here, up⟩, short, bytes, noSpace, noDot, unreserved⟩
    exact ⟨nonempty, here, up, short, bytes, noSpace, noDot, unreserved⟩
  · intro well
    exact ⟨⟨well.nonempty, well.here, well.up⟩, well.short, well.bytes, well.noSpace, well.noDot, well.unreserved⟩

theorem checkEntryParts_eq_ok {parts : List Text} :
    checkEntryParts limits parts = .ok () ↔ ∀ part ∈ parts, EntryPart limits part := by
  induction parts with
  | nil => simp [checkEntryParts]
  | cons part rest ih =>
    rw [checkEntryParts, bind_eq_ok, List.forall_mem_cons, ← checkEntryPart_eq_ok, ← ih]
    exact ⟨fun ⟨_, first, later⟩ => ⟨first, later⟩, fun ⟨first, later⟩ => ⟨(), first, later⟩⟩

/-- The components with what stood after them are the path. -/
theorem joinText_entryParts (path : Text) :
    joinText '/' (entryParts path) ++ (if path.getLast? = some '/' then ['/'] else []) = path := by
  unfold entryParts
  split
  · next directory =>
    obtain ⟨front, rfl⟩ := List.getLast?_eq_some_iff.mp directory
    rw [splitText_append, splitText, List.dropLast_concat, joinText_splitText]
  · rw [joinText_splitText, List.append_nil]

/-- The segments of a path are its components, and an empty one after a slash at the end. -/
theorem splitText_entryParts (path : Text) :
    splitText '/' path = entryParts path ++ (if path.getLast? = some '/' then [[]] else []) := by
  unfold entryParts
  split
  · next directory =>
    obtain ⟨front, rfl⟩ := List.getLast?_eq_some_iff.mp directory
    rw [splitText_append, splitText, List.dropLast_concat]
  · rw [List.append_nil]

theorem not_mem_entryParts {part : Text} (member : part ∈ entryParts path) : '/' ∉ part := by
  refine @not_mem_splitText _ path _ ?_
  rw [splitText_entryParts]
  exact List.mem_append_left _ member

end Components

section Paths

/-- A path that archives may hold. -/
structure EntryPath (limits : ZipLimits) (path : Text) : Prop where
  relative : path.head? ≠ some '/'
  drive : driveLetter path = false
  control : path.any controlCharacter = false
  backslash : '\\' ∉ path
  nonempty : entryParts path ≠ []
  depth : (entryParts path).length ≤ limits.maxDepth
  parts : ∀ part ∈ entryParts path, EntryPart limits part

/-- What is accepted is the name with slashes, and a path that archives may hold. -/
theorem normalizeEntry_eq_ok :
    normalizeEntry limits name = .ok path ↔ path = name.map slashed ∧ EntryPath limits path := by
  unfold normalizeEntry
  rw [demand_bind_eq_ok]
  dsimp only
  rw [demand_bind_eq_ok, demand_bind_eq_ok, bind_eq_ok, joinText_entryParts]
  have control : (name.map slashed).any controlCharacter = name.any controlCharacter := by
    rw [List.any_map]
    exact congrArg name.any (funext controlCharacter_slashed)
  constructor
  · rintro ⟨clean, ⟨relative, drive⟩, ⟨nonempty, depth⟩, _, checked, returned⟩
    cases returned
    exact ⟨rfl, relative, drive, control.trans clean, not_mem_map_slashed name, nonempty, depth,
      checkEntryParts_eq_ok.mp checked⟩
  · rintro ⟨rfl, well⟩
    exact ⟨control.symm.trans well.control, ⟨well.relative, well.drive⟩, ⟨well.nonempty, well.depth⟩, (),
      checkEntryParts_eq_ok.mpr well.parts, rfl⟩

theorem EntryPath.again (well : EntryPath limits path) : normalizeEntry limits path = .ok path :=
  normalizeEntry_eq_ok.mpr ⟨(map_slashed well.backslash).symm, well⟩

theorem EntryPath.ne_nil (well : EntryPath limits path) : path ≠ [] := by
  rintro rfl
  exact (well.parts [] List.mem_cons_self).nonempty rfl

/-- A path resolves to its components below the directory it is joined to. -/
theorem EntryPath.resolves (well : EntryPath limits path) (root : List String) :
    resolvePath root (pathSegments path) = root ++ (entryParts path).map String.ofList := by
  have plain : ∀ segment ∈ (entryParts path).map String.ofList, segment ≠ "" ∧ segment ≠ "." ∧ segment ≠ ".." := by
    intro segment member
    obtain ⟨part, listed, rfl⟩ := List.mem_map.mp member
    have good := well.parts part listed
    have chars : ∀ text : String, String.ofList part = text → part = text.toList := fun text same => by
      rw [← same, String.toList_ofList]
    exact ⟨fun same => good.nonempty (chars _ same), fun same => good.here (chars _ same), fun same => good.up (chars _ same)⟩
  rw [pathSegments, splitText_entryParts, List.map_append, resolvePath_append, resolvePath_plain plain]
  split <;> rfl

end Paths

section Claims

/-- What an accepted path is: it is accepted as it is, and is below every root that it is joined to. -/
structure SafeEntry (limits : ZipLimits) (path : Text) : Prop where
  ne_nil : path ≠ []
  again : normalizeEntry limits path = .ok path
  relative : path.head? ≠ some '/'
  parts : ∀ part ∈ entryParts path, part ≠ [] ∧ part ≠ ['.'] ∧ part ≠ ['.', '.'] ∧
    part.length ≤ limits.maxNameLength ∧ byteLength part ≤ 255
  depth : (entryParts path).length ≤ limits.maxDepth
  chars : ∀ c ∈ path, c ≠ '\\' ∧ c.toNat ≠ 0 ∧ controlCharacter c = false
  below : ∀ root : List String, ∃ below, below ≠ [] ∧ resolvePath root (pathSegments path) = root ++ below

theorem EntryPath.safe (well : EntryPath limits path) : SafeEntry limits path where
  ne_nil := well.ne_nil
  again := well.again
  relative := well.relative
  parts part member := by
    have good := well.parts part member
    exact ⟨good.nonempty, good.here, good.up, good.short, good.bytes⟩
  depth := well.depth
  chars c member := by
    have clean : controlCharacter c = false := by
      simpa using List.any_eq_false.mp well.control c member
    refine ⟨fun same => well.backslash (same ▸ member), fun zero => ?_, clean⟩
    simp [controlCharacter, zero] at clean
  below root := ⟨_, by simpa using well.nonempty, well.resolves root⟩

/-- The path is accepted unchanged, as the path of a file. -/
def AcceptedAsFile (limits : ZipLimits) (value : Text) : Prop :=
  normalizeEntry limits value = .ok value ∧ value.getLast? ≠ some '/'

theorem acceptedAsFile_iff (accepted : normalizeEntry limits value = .ok path) (file : value.getLast? ≠ some '/') :
    AcceptedAsFile limits value ↔ '\\' ∉ value := by
  obtain ⟨rfl, well⟩ := normalizeEntry_eq_ok.mp accepted
  constructor
  · rintro ⟨same, -⟩
    exact (normalizeEntry_eq_ok.mp same).2.backslash
  · intro plain
    rw [map_slashed plain] at accepted
    exact ⟨accepted, file⟩

variable {toLowerCase : Text → Text}

theorem checkEntryParts_ofPath (parts : List Text) : checkEntryParts limits.ofPath parts = checkEntryParts limits parts := by
  induction parts with
  | nil => rfl
  | cons part rest ih =>
    rw [checkEntryParts, checkEntryParts, ih]
    rfl

/-- The limits of one path are all that a name is checked for. -/
theorem normalizeEntry_ofPath : normalizeEntry limits.ofPath name = normalizeEntry limits name := by
  unfold normalizeEntry
  simp only [checkEntryParts_ofPath]
  rfl

/-- An accepted entrypoint has no backslash, and its path is accepted. -/
theorem validateEntrypointPath_eq_ok (accepted : validateEntrypointPath toLowerCase limits value = .ok path) :
    normalizeEntry limits value = .ok path ∧ value.getLast? ≠ some '/' ∧ '\\' ∉ value ∧
      toLowerCase (extname path) = ".tex".toList := by
  unfold validateEntrypointPath at accepted
  obtain ⟨⟨file, plain⟩, accepted⟩ := demand_bind_eq_ok.mp accepted
  obtain ⟨normalized, same, accepted⟩ := bind_eq_ok.mp accepted
  obtain ⟨tex, accepted⟩ := demand_bind_eq_ok.mp accepted
  cases accepted
  exact ⟨normalizeEntry_ofPath ▸ same, file, plain, tex⟩

theorem validateSourceFilePath_eq_ok (accepted : validateSourceFilePath toLowerCase limits value = .ok path) :
    normalizeEntry limits value = .ok path ∧ value.getLast? ≠ some '/' ∧
      allowedExtensions.contains (toLowerCase (extname path)) = true := by
  unfold validateSourceFilePath at accepted
  obtain ⟨file, accepted⟩ := demand_bind_eq_ok.mp accepted
  obtain ⟨normalized, same, accepted⟩ := bind_eq_ok.mp accepted
  dsimp only at accepted
  obtain ⟨allowed, accepted⟩ := demand_bind_eq_ok.mp accepted
  cases accepted
  exact ⟨normalizeEntry_ofPath ▸ same, file, allowed⟩

/-- What `normalizeEntry` makes of a name is safe; an accepted entrypoint is accepted by it unchanged, as a file; and an
accepted source path is so exactly when it has no backslash. -/
theorem entryPaths_agree_iff (toLowerCase : Text → Text) (limits : ZipLimits) (value : Text) :
    (∀ path, normalizeEntry limits value = .ok path → SafeEntry limits path) ∧
    (∀ path, validateEntrypointPath toLowerCase limits value = .ok path → AcceptedAsFile limits value) ∧
    ∀ path, validateSourceFilePath toLowerCase limits value = .ok path →
      (AcceptedAsFile limits value ↔ '\\' ∉ value) := by
  refine ⟨fun path accepted => (normalizeEntry_eq_ok.mp accepted).2.safe, fun path accepted => ?_, fun path accepted => ?_⟩
  · obtain ⟨same, file, plain, -⟩ := validateEntrypointPath_eq_ok accepted
    exact (acceptedAsFile_iff same file).mpr plain
  · obtain ⟨same, file, -⟩ := validateSourceFilePath_eq_ok accepted
    exact acceptedAsFile_iff same file

/-- The limits that a path has when none are given. -/
def defaultPathLimits : ZipLimits := ⟨1, 1, 1, 1, 10, 200⟩

/-- A source path that ends in a backslash is accepted, and is the path of a directory. -/
theorem validateSourceFilePath_backslash :
    validateSourceFilePath (List.map Char.toLower) defaultPathLimits "main.tex\\".toList = .ok "main.tex/".toList ∧
      ¬ ∀ value path, validateSourceFilePath (List.map Char.toLower) defaultPathLimits value = .ok path →
        AcceptedAsFile defaultPathLimits value := by
  have accepted : validateSourceFilePath (List.map Char.toLower) defaultPathLimits "main.tex\\".toList =
      .ok "main.tex/".toList := by decide
  refine ⟨accepted, fun all => ?_⟩
  obtain ⟨same, file, -⟩ := validateSourceFilePath_eq_ok accepted
  exact (acceptedAsFile_iff same file).mp (all _ _ accepted) (by decide)

end Claims

end LatexRenderer
