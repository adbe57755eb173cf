import LatexRenderer.Sources.ZipExtraction

/-! # Names of an accepted archive

Entries whose folded names collide are refused, a file below a file is refused by the file system, and what is written is
what the result tells. A directory entry at or below a file is accepted.
-/

namespace LatexRenderer

open Machine
open Machine.Process

variable {request : ExtractRequest}

section Targets

/-- The path of a component list is that of its text below the root. -/
theorem target_eq {name : Text} (well : EntryPath request.limits name) :
    request.target name = request.root ++ (entryParts name).map String.ofList :=
  well.resolves request.root

theorem target_prefix_iff {first second : Text} (one : EntryPath request.limits first) (two : EntryPath request.limits second) :
    request.target first <+: request.target second ↔ entryParts first <+: entryParts second := by
  rw [target_eq one, target_eq two, List.prefix_append_right_inj]
  constructor
  · intro within
    have texts := within.map String.toList
    simpa [Function.comp_def] using texts
  · intro within
    exact within.map _

end Targets

section Claims

variable {fold : Text → Text} {base : List (List String × Octets)} {names : List Text} {archive : List ZipEntry}
  {s t : ExtractState} {x : Extracted} {result : ExtractResult}

/-- The components of a name in the form in which names are compared. -/
def foldedParts (fold : Text → Text) (name : Text) : List Text := (entryParts name).map fold

/-- An entry makes a path a directory: it is that directory, or it is below it. -/
def UsesDirectory (fold : Text → Text) (name : Text) (path : List Text) : Prop :=
  path <+: foldedParts fold name ∧ (path = foldedParts fold name → namesDirectory name = true)

/-- What was written is what the result tells, below the root and within the limits. -/
structure WrittenExactly (request : ExtractRequest) (base after : List (List String × Octets)) (names : List Text)
    (result : ExtractResult) : Prop where
  paths : result.paths = names.filter fun name => !namesDirectory name
  files : result.files = result.paths.length
  few : result.files ≤ request.limits.maxFiles
  depth : ∀ name ∈ names, (entryParts name).length ≤ request.limits.maxDepth
  total : result.bytes ≤ request.limits.maxExtractedBytes
  written : ∃ written, after = base ++ written ∧
    written.map Prod.fst = result.paths.map (fun path => request.root ++ (entryParts path).map String.ofList) ∧
    (∀ file ∈ written, file.2.length ≤ request.limits.maxFileBytes) ∧
    (written.map fun file => file.2.length).sum = result.bytes

/-- No two entries name one path, no path is a file and a directory, and what was written is what the result tells. -/
structure CleanExtraction (request : ExtractRequest) (base after : List (List String × Octets)) (names : List Text)
    (result : ExtractResult) : Prop where
  apart : names.Pairwise fun first second => foldedParts request.fold first ≠ foldedParts request.fold second
  unmixed : ∀ file ∈ names, namesDirectory file = false → ∀ other ∈ names,
    ¬ UsesDirectory request.fold other (foldedParts request.fold file)
  written : WrittenExactly request base after names result

/-- No entry of a directory is at or below one of a file. -/
def NoDirectoryInFile (names : List Text) : Prop :=
  ∀ file ∈ names, namesDirectory file = false → ∀ directory ∈ names, namesDirectory directory = true →
    ¬ entryParts file <+: entryParts directory

/-- Folding works on the components of a path: a slash takes no part in it. -/
def FoldsParts (fold : Text → Text) : Prop :=
  ∀ parts : List Text, (∀ part ∈ parts, '/' ∉ part) → fold (joinText '/' parts) = joinText '/' (parts.map fold)

/-- A name is its components and what kind of entry it is. -/
theorem name_eq {first second : Text} (same : entryParts first = entryParts second)
    (kind : namesDirectory first = namesDirectory second) : first = second := by
  have ends : first.getLast? = some '/' ↔ second.getLast? = some '/' := decide_eq_decide.mp kind
  rw [← joinText_entryParts first, ← joinText_entryParts second, same]
  simp only [ends]

theorem ExtractionSound.writtenExactly (sound : ExtractionSound request base names x t) :
    WrittenExactly request base t.files names { files := x.files, bytes := x.bytes, paths := x.paths } where
  paths := sound.paths
  files := sound.files
  few := sound.few
  depth name member := (sound.accepted name member).depth
  total := sound.total
  written := by
    obtain ⟨written, files, places, short, sum⟩ := sound.written
    refine ⟨written, files, places.trans (List.map_congr_left fun path member => ?_), short, sum⟩
    rw [sound.paths] at member
    exact target_eq (sound.accepted path (List.mem_filter.mp member).1)

theorem ExtractionSound.spelling (sound : ExtractionSound request base names x t) (folds : FoldsParts request.fold)
    {first second : Text} (one : first ∈ names) (two : second ∈ names) {path other : List Text}
    (within : path <+: entryParts first) (inside : other <+: entryParts second)
    (same : path.map request.fold = other.map request.fold) : path = other := by
  have plain : ∀ name, ∀ path, path <+: entryParts name → ∀ part ∈ path, '/' ∉ part := fun name path within part member =>
    not_mem_entryParts (within.subset member)
  by_cases empty : path = []
  · subst empty
    exact (List.map_eq_nil_iff.mp same.symm).symm
  · have some : other ≠ [] := fun none => by
      subst none
      exact empty (List.map_eq_nil_iff.mp same)
    have keys : request.fold (joinText '/' path) = request.fold (joinText '/' other) := by
      rw [folds path (plain first path within), folds other (plain second other inside), same]
    have here := sound.spelled first one _ (mem_componentPaths empty within)
    have there := sound.spelled second two _ (mem_componentPaths some inside)
    rw [keys, there] at here
    rw [← splitText_joinText '/' empty (plain first path within), ← splitText_joinText '/' some (plain second other inside),
      Option.some.inj here]

theorem ExtractionSound.files_apart (sound : ExtractionSound request base names x t) {file other : Text}
    (one : file ∈ names) (two : other ∈ names) (first : namesDirectory file = false)
    (second : namesDirectory other = false) (above : entryParts file <+: entryParts other) : file = other := by
  by_contra apart
  have listed : ∀ name ∈ names, namesDirectory name = false → name ∈ x.paths := by
    intro name member kind
    rw [sound.paths]
    exact List.mem_filter.mpr ⟨member, by simp [kind]⟩
  have symmetric : Std.Symm fun first second : Text =>
      ¬ request.target first <+: request.target second ∧ ¬ request.target second <+: request.target first :=
    ⟨fun _ _ both => both.symm⟩
  have incomparable := sound.apart.forall (listed file one first) (listed other two second) apart
  exact incomparable.1 ((target_prefix_iff (sound.accepted file one) (sound.accepted other two)).mpr above)

/-- Names that fold to one are those of a file and of a directory, spelled alike. -/
theorem ExtractionSound.apart_of (sound : ExtractionSound request base names x t) (folds : FoldsParts request.fold)
    (clear : NoDirectoryInFile names) :
    names.Pairwise fun first second => foldedParts request.fold first ≠ foldedParts request.fold second := by
  have keys : names.Pairwise fun first second => request.fold first ≠ request.fold second := by
    rw [← List.pairwise_map, ← sound.seen]
    exact sound.distinct
  refine keys.imp_of_mem fun {first second} one two other same => ?_
  have alike := sound.spelling folds one two (List.prefix_refl _) (List.prefix_refl _) same
  cases kind : namesDirectory first with
  | false =>
    cases kind' : namesDirectory second with
    | false => exact other (congrArg request.fold (name_eq alike (kind.trans kind'.symm)))
    | true => exact clear first one kind second two kind' (alike ▸ List.prefix_refl _)
  | true =>
    cases kind' : namesDirectory second with
    | false => exact clear second two kind' first one kind (alike ▸ List.prefix_refl _)
    | true => exact other (congrArg request.fold (name_eq alike (kind.trans kind'.symm)))

/-- A file that another entry makes a directory is spelled as that entry has it. -/
theorem ExtractionSound.unmixed_of (sound : ExtractionSound request base names x t) (folds : FoldsParts request.fold)
    (clear : NoDirectoryInFile names) {file other : Text} (one : file ∈ names) (plain : namesDirectory file = false)
    (two : other ∈ names) : ¬ UsesDirectory request.fold other (foldedParts request.fold file) := by
  rintro ⟨within, itself⟩
  obtain ⟨path, above, same⟩ := List.prefix_map_iff.mp within
  have alike := sound.spelling folds one two (List.prefix_refl _) above same
  subst alike
  cases kind : namesDirectory other with
  | true => exact clear file one plain other two kind above
  | false =>
    obtain rfl := sound.files_apart one two plain kind above
    exact Bool.false_ne_true (kind.symm.trans (itself rfl))

/-- What is extracted is clean exactly if no directory entry is at or below a file. -/
theorem ExtractionSound.clean_iff (sound : ExtractionSound request base names x t) (folds : FoldsParts request.fold)
    (told : result = { files := x.files, bytes := x.bytes, paths := x.paths }) :
    CleanExtraction request base t.files names result ↔ NoDirectoryInFile names := by
  constructor
  · intro clean file one plain directory two kind within
    exact clean.unmixed file one plain directory two ⟨within.map _, fun _ => kind⟩
  · intro clear
    exact {
      apart := sound.apart_of folds clear
      unmixed := fun file one plain other two => sound.unmixed_of folds clear one plain two
      written := told ▸ sound.writtenExactly }

/-- Whatever its calls are answered, an accepted archive has left exactly the files that the result tells, within the
limits; and its names are clean exactly if no directory entry is at or below a file. -/
theorem extraction_clean_iff (request : ExtractRequest) (archive : List ZipEntry) (folds : FoldsParts request.fold)
    (destination : Bool) (directories : List (List String)) (base : List (List String × Octets)) :
    (validateAndExtract request archive).wp anyAnswer
      (fun result t => ∃ names, List.Forall₂ (Named request) archive names ∧
        (CleanExtraction request base t.files names result ↔ NoDirectoryInFile names) ∧
        WrittenExactly request base t.files names result)
      (fun _ _ => True) (fun _ _ => True) (.start destination directories base) := by
  refine Ends.bind (ends_changeCall trivial fun _ => ?_)
  refine Ends.bind (ends_changeCall trivial fun _ => ?_)
  refine Ends.bind (ends_changeCall trivial fun _ => ?_)
  refine Ends.bind (ends_changeCall trivial fun _ => ?_)
  refine Ends.bind (ends_changeCall trivial fun _ => ?_)
  refine Ends.bind (ends_ofExcept (fun entrypoint _ => ?_) fun _ _ => trivial)
  refine Ends.bind (ends_outcome ((extractArchive_ends ?_).mono ?_ fun error t _ => ?_))
  · constructor <;> rfl
  · rintro result t ⟨names, x, named, sound, told⟩
    refine Ends.bind (Ends.bind (ends_mark (ends_changeCall trivial fun _ => ?_)))
    exact ⟨names, named, sound.clean_iff folds told, told ▸ sound.writtenExactly⟩
  · refine Ends.bind (ends_outcome (ends_changeCall ?_ fun _ => ?_)) <;>
      exact Ends.bind (Ends.bind (ends_mark (ends_changeCall trivial fun _ => trivial)))

/-- A request for which folding is that of ASCII letters. -/
def plainRequest : ExtractRequest where
  limits := ⟨1024, 1024, 20, 10, 10, 200⟩
  requestedEntrypoint := "main.tex".toList
  root := ["srv"]
  nfc := id
  toLowerCase := List.map Char.toLower

theorem foldsParts_plain : FoldsParts plainRequest.fold := fun parts _ => map_joinText (by decide) parts

/-- An entry without compression. -/
def storedEntry (fileName : String) (size : Nat) : ZipEntry where
  fileName := fileName.toList
  generalPurposeBitFlag := 0
  compressionMethod := 0
  compressedSize := size
  uncompressedSize := size
  externalFileAttributes := 0

/-- An answer of nothing. -/
def noAnswer : ExtractAnswer where
  octets := []
  chunks := []
  path := []

/-- What is read of the local header of an entry without compression. -/
def headerReplies (fileName : String) (size : UInt8) : List (Reply ExtractAnswer) :=
  [.done noAnswer,
    .done { noAnswer with octets := [0x50, 0x4b, 3, 4, 20, 0, 0, 0, 0, 0, 0, 0, 0, 0, 0, 0, 0, 0, size, 0, 0, 0, size, 0, 0, 0,
      UInt8.ofNat (utf8Octets fileName.toList).length, 0, 0, 0] },
    .done { noAnswer with octets := utf8Octets fileName.toList }]

/-- The calls before the loop. -/
def openReplies : List (Reply ExtractAnswer) := List.replicate 5 (.done noAnswer)

/-- A file of one octet is written. -/
def fileReplies : List (Reply ExtractAnswer) :=
  [.done noAnswer, .done noAnswer, .done { noAnswer with path := ["srv"] }, .done noAnswer, .done noAnswer, .done noAnswer,
    .done { noAnswer with chunks := [[0x78]] }]

/-- A directory and a file below it. -/
def nestedArchive : List ZipEntry := [storedEntry "sub/" 0, storedEntry "sub/main.tex" 1]

/-- With folding of ASCII letters the theorem is about every archive. -/
theorem extraction_clean_iff_plain :
    (validateAndExtract plainRequest nestedArchive).wp anyAnswer
      (fun result t => ∃ names, List.Forall₂ (Named plainRequest) nestedArchive names ∧
        (CleanExtraction plainRequest [] t.files names result ↔ NoDirectoryInFile names) ∧
        WrittenExactly plainRequest [] t.files names result)
      (fun _ _ => True) (fun _ _ => True) (.start false [] []) :=
  extraction_clean_iff plainRequest nestedArchive foldsParts_plain false [] []

/-- An archive with a directory and a file of one name is accepted. -/
theorem extraction_collides :
    ¬ ∀ (request : ExtractRequest) (archive : List ZipEntry), FoldsParts request.fold →
      ∀ (destination : Bool) (directories : List (List String)) (base : List (List String × Octets)),
        (validateAndExtract request archive).wp anyAnswer
          (fun result t => ∃ names, List.Forall₂ (Named request) archive names ∧
            CleanExtraction request base t.files names result)
          (fun _ _ => True) (fun _ _ => True) (.start destination directories base) := by
  intro all
  have promise := all plainRequest [storedEntry "main.tex/" 0, storedEntry "main.tex" 1] foldsParts_plain false [] []
  have accepted : ((validateAndExtract plainRequest [storedEntry "main.tex/" 0, storedEntry "main.tex" 1]).replay?
      (openReplies ++ headerReplies "main.tex/" 0 ++ headerReplies "main.tex" 1 ++ fileReplies ++
        List.replicate 3 (.done noAnswer)) (.start false [] [])).map Prod.fst =
      some (.ok { files := 1, bytes := 1, paths := ["main.tex".toList] }) := by decide +kernel
  obtain ⟨⟨_, t⟩, ran, rfl⟩ := Option.map_eq_some_iff.mp accepted
  obtain ⟨names, named, clean⟩ := (promise.replay ran).1 _ rfl
  have directory : normalizeEntry plainRequest.limits "main.tex/".toList = .ok "main.tex/".toList := by decide
  have file : normalizeEntry plainRequest.limits "main.tex".toList = .ok "main.tex".toList := by decide
  obtain ⟨first, rest, one, others, rfl⟩ := List.forall₂_cons_left_iff.mp named
  obtain ⟨second, rest, two, none, rfl⟩ := List.forall₂_cons_left_iff.mp others
  obtain rfl := Except.ok.inj (one.symm.trans directory)
  obtain rfl := Except.ok.inj (two.symm.trans file)
  have apart := List.rel_of_pairwise_cons clean.apart List.mem_cons_self
  exact apart (by decide)

end Claims

end LatexRenderer
