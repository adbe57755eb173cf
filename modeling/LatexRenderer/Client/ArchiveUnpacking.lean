import Mathlib.Algebra.Order.Ring.Nat
import Mathlib.Data.List.TakeWhile
import LatexRenderer.Client.ZipArchives
import LatexRenderer.Model.Texts

/-! # Unpacking the archive of the client

Whatever the octets of an archive are and however the calls of the file system end, only files below the payload's directory
are made, and no read leaves the archive. When unpacking returns, the central directory is a row of records, one for each file
that was made, and each file has the size and the checksum that its record tells.
-/

namespace LatexRenderer

open Machine
open Machine.Process

section Rules

variable {S σ ι ε α β : Type} {allowed : S → Reply ι → Prop} {Q : α → σ → Prop} {R : β → σ → Prop} {E : ε → σ → Prop}
  {C : S → σ → Prop} {s : σ}

/-- What is promised of the errors and the visits holds of the first part, and of the rest wherever that returned. -/
theorem wp_bind_of {p : Process S σ ι ε α} {f : α → Process S σ ι ε β} (first : p.wp allowed Q E C s)
    (later : ∀ value t, Q value t → (f value).wp allowed R E C t) : (p >>= f).wp allowed R E C s :=
  wp_bind.mpr (first.mono later (fun _ _ failed => failed) fun _ _ visited => visited)

theorem completes_ofExcept {result : Except ε α} {value : α} (found : result = .ok value) (holds : Q value s) :
    (Process.ofExcept result : Process S σ ι ε α).Completes Q s := by
  subst found
  exact holds

end Rules

section Reading

variable {bytes : Octets} {inflateRawSync : Octets → Option Octets} {offset cursor width value : Nat} {name : Text}
  {header : ClientHeader} {x y : Unpacked} {content : Octets}

/-- A file of the archive. -/
structure ArchivedFile where
  record : CentralRecord
  name : Text
  content : Octets

/-- A name below the payload. -/
def SafeName (name : Text) : Prop :=
  payloadName ++ ['/'] <+: name ∧ '\\' ∉ name ∧ Char.ofNat 0 ∉ name ∧ (splitText '/' name).any unsafePart = false

/-- The data behind a local header. -/
structure LocalData (bytes : Octets) (r : CentralRecord) (name : Text) (data : Octets) : Prop where
  header : ∃ h : LocalHeader, StandsAt bytes r.localOffset h.octets ∧ FieldsFit h.fields ∧ utf8Text h.name = name ∧
    h.flags = r.flags ∧ h.method = r.method ∧ StandsAt bytes (r.localOffset + h.octets.length) data
  size : data.length = r.compressedSize

/-- The archive has the file, as its record tells. -/
structure Archived (bytes : Octets) (inflateRawSync : Octets → Option Octets) (f : ArchivedFile) : Prop where
  named : utf8Text f.record.name = f.name
  safe : SafeName f.name
  plain : f.record.flags &&& 1 = 0
  data : ∃ data, LocalData bytes f.record f.name data ∧
    (f.record.method = 0 ∧ f.content = data ∨ f.record.method = 8 ∧ inflateRawSync data = some f.content)
  size : f.content.length = f.record.expandedSize
  crc : crc32 f.content = f.record.crc

theorem readArchive_eq_ok : readArchive bytes offset width = .ok value ↔
    offset + width ≤ bytes.length ∧ readField bytes offset width = value :=
  obtain?_eq_ok.trans field?_eq_some

/-- The local header that is read at an offset. -/
def localRead (bytes : Octets) (offset : Nat) : LocalHeader :=
  let nameEnd := offset + 30 + readField bytes (offset + 26) 2
  { version := readField bytes (offset + 4) 2
    flags := readField bytes (offset + 6) 2
    method := readField bytes (offset + 8) 2
    time := readField bytes (offset + 10) 2
    date := readField bytes (offset + 12) 2
    crc := readField bytes (offset + 14) 4
    compressedSize := readField bytes (offset + 18) 4
    expandedSize := readField bytes (offset + 22) 4
    name := slice bytes (offset + 30) nameEnd
    extra := slice bytes nameEnd (nameEnd + readField bytes (offset + 28) 2) }

/-- A local header that lies in the archive is read. -/
theorem localRead_stands (signed : readField bytes offset 4 = 0x04034b50)
    (inside : offset + 30 + readField bytes (offset + 26) 2 + readField bytes (offset + 28) 2 ≤ bytes.length) :
    StandsAt bytes offset (localRead bytes offset).octets ∧ FieldsFit (localRead bytes offset).fields ∧
      (localRead bytes offset).octets.length = 30 + readField bytes (offset + 26) 2 + readField bytes (offset + 28) 2 := by
  have nameLength : (localRead bytes offset).name.length = readField bytes (offset + 26) 2 := by
    rw [localRead, length_slice _ (by omega)]
    omega
  have extraLength : (localRead bytes offset).extra.length = readField bytes (offset + 28) 2 := by
    rw [localRead, length_slice _ (by omega)]
    omega
  have read : FieldsAt bytes offset (localRead bytes offset).fields := by
    rw [LocalHeader.fields, nameLength, extraLength]
    exact ⟨signed, rfl, rfl, rfl, rfl, rfl, rfl, rfl, rfl, rfl, rfl, trivial⟩
  have width := (localRead bytes offset).width_fields
  refine ⟨standsAt_append.mpr ⟨read.stands (by omega), ?_⟩, read.fit, ?_⟩
  · rw [length_fieldOctets, width]
    refine standsAt_append.mpr ⟨standsAt_slice _ _ _, ?_⟩
    rw [nameLength]
    exact standsAt_slice _ _ _
  · rw [LocalHeader.length_octets, nameLength, extraLength]

/-- A name below the payload is not that of a directory. -/
theorem SafeName.file (safe : SafeName name) : name.getLast? ≠ some '/' := by
  intro ends
  obtain ⟨front, rfl⟩ := List.getLast?_eq_some_iff.mp ends
  have part : ([] : Text) ∈ splitText '/' (front ++ ['/']) := by
    rw [splitText_append]
    exact List.mem_append_right _ (List.mem_singleton_self _)
  have all := List.any_eq_false.mp safe.2.2.2 [] part
  exact all rfl

theorem validateEntryName_eq_ok {seen now : List Text} :
    validateEntryName name seen = .ok now ↔ SafeName name ∧ name ∉ seen ∧ now = seen ++ [name] := by
  unfold validateEntryName
  rw [demand_bind_eq_ok, demand_bind_eq_ok]
  exact and_congr_right fun _ => and_congr_right fun _ => ⟨fun done => (Except.ok.inj done).symm, fun done => done ▸ rfl⟩

/-- What is read of a record. -/
def CentralRecord.clientHeader (r : CentralRecord) : ClientHeader where
  flags := r.flags
  method := r.method
  expectedCrc := r.crc
  compressedSize := r.compressedSize
  expandedSize := r.expandedSize
  nameLength := r.name.length
  extraLength := r.extra.length
  commentLength := r.comment.length
  localOffset := r.localOffset

theorem readClientHeader_ok (read : readClientHeader bytes cursor = .ok header)
    (inside : cursor + 46 + header.nameLength + header.extraLength + header.commentLength ≤ bytes.length) :
    ∃ r : CentralRecord, StandsAt bytes cursor r.octets ∧ FieldsFit r.fields ∧ header = r.clientHeader := by
  unfold readClientHeader at read
  simp only [bind_eq_ok, demand_eq_ok, readArchive_eq_ok] at read
  obtain ⟨-, -, signature, ⟨-, signed⟩, -, rfl, flags, ⟨-, flagsRead⟩, method, ⟨-, methodRead⟩, crc, ⟨-, crcRead⟩, compressed,
    ⟨-, compressedRead⟩, expanded, ⟨-, expandedRead⟩, nameLength, ⟨-, nameRead⟩, extraLength, ⟨-, extraRead⟩, commentLength,
    ⟨-, commentRead⟩, localOffset, ⟨-, offsetRead⟩, done⟩ := read
  cases done
  subst nameRead extraRead commentRead
  obtain ⟨stands, fit, -⟩ := centralRead_stands signed inside
  have reads := centralReads stands fit
  refine ⟨_, stands, fit, ?_⟩
  rw [CentralRecord.clientHeader, ← reads.flags, ← reads.method, ← reads.crc, ← reads.compressedSize, ← reads.expandedSize,
    ← reads.nameLength, ← reads.extraLength, ← reads.commentLength, ← reads.localOffset, flagsRead, methodRead, crcRead,
    compressedRead, expandedRead, offsetRead]

theorem clientDataOffset_ok {r : CentralRecord} (read : clientDataOffset bytes r.clientHeader name = .ok offset)
    (within : offset ≤ bytes.length) :
    ∃ h : LocalHeader, StandsAt bytes r.localOffset h.octets ∧ FieldsFit h.fields ∧ utf8Text h.name = name ∧
      h.flags = r.flags ∧ h.method = r.method ∧ offset = r.localOffset + h.octets.length := by
  unfold clientDataOffset at read
  simp only [bind_eq_ok, demand_eq_ok, readArchive_eq_ok] at read
  obtain ⟨-, -, signature, ⟨-, signed⟩, -, rfl, nameLength, ⟨-, rfl⟩, extraLength, ⟨-, rfl⟩, -, named, flags, ⟨-, flagsRead⟩, -,
    sameFlags, method, ⟨-, methodRead⟩, -, sameMethod, done⟩ := read
  cases done
  obtain ⟨stands, fit, size⟩ := localRead_stands signed within
  exact ⟨_, stands, fit, named, flagsRead.trans sameFlags, methodRead.trans sameMethod, by
    rw [size, ← Nat.add_assoc, ← Nat.add_assoc]
    rfl⟩

theorem clientContent_ok {r : CentralRecord} {expandedBytes : Nat}
    (read : clientContent bytes inflateRawSync r.clientHeader name expandedBytes = .ok content) :
    r.flags &&& 1 = 0 ∧
      (∃ data, LocalData bytes r name data ∧ (r.method = 0 ∧ content = data ∨ r.method = 8 ∧ inflateRawSync data = some content)) ∧
      (content.length = r.expandedSize ∧ expandedBytes + content.length ≤ maximumExpandedBytes) ∧ crc32 content = r.crc := by
  unfold clientContent at read
  simp only [bind_eq_ok, demand_eq_ok] at read
  obtain ⟨-, plain, -, methods, dataOffset, located, -, within, rest⟩ := read
  have inside : dataOffset + r.compressedSize ≤ bytes.length := within
  obtain ⟨h, stands, fit, named, flags, method, rfl⟩ := clientDataOffset_ok located (by omega)
  have placed : LocalData bytes r name (slice bytes (r.localOffset + h.octets.length)
      (r.localOffset + h.octets.length + r.compressedSize)) :=
    ⟨⟨h, stands, fit, named, flags, method, standsAt_slice _ _ _⟩, by rw [length_slice _ inside, Nat.add_sub_cancel_left]⟩
  split at rest
  · next stored =>
    simp only [bind_eq_ok, demand_eq_ok] at rest
    obtain ⟨found, same, -, sizes, -, crc, done⟩ := rest
    cases same
    cases done
    exact ⟨plain, ⟨_, placed, .inl ⟨stored, rfl⟩⟩, sizes, crc⟩
  · next deflated =>
    simp only [bind_eq_ok, demand_eq_ok, obtain?_eq_ok] at rest
    obtain ⟨found, expanded, -, sizes, -, crc, done⟩ := rest
    cases done
    exact ⟨plain, ⟨_, placed, .inr ⟨methods.resolve_left deflated, expanded⟩⟩, sizes, crc⟩

/-- A turn of the loop reads a file of the archive. -/
theorem readClientEntry_ok {file : Option (Text × Octets)} (read : readClientEntry bytes inflateRawSync x = .ok (file, y)) :
    ∃ f : ArchivedFile, Archived bytes inflateRawSync f ∧ file = some (f.name, f.content) ∧
      StandsAt bytes x.cursor f.record.octets ∧ FieldsFit f.record.fields ∧ f.name ∉ x.seen ∧
      x.expandedBytes + f.content.length ≤ maximumExpandedBytes ∧
      y = ⟨x.seen ++ [f.name], x.cursor + f.record.octets.length, x.expandedBytes + f.content.length⟩ := by
  unfold readClientEntry at read
  simp only [bind_eq_ok, demand_eq_ok, validateEntryName_eq_ok] at read
  obtain ⟨header, headed, -, inside, seen, ⟨safe, fresh, rfl⟩, rest⟩ := read
  obtain ⟨r, stands, fit, rfl⟩ := readClientHeader_ok headed inside
  have reads := centralReads stands fit
  have size := r.length_octets
  have name : slice bytes (x.cursor + 46) (x.cursor + 46 + r.clientHeader.nameLength) = r.name := reads.name
  rw [name] at safe fresh rest
  rw [if_neg safe.file, bind_eq_ok] at rest
  obtain ⟨content, found, done⟩ := rest
  obtain ⟨plain, data, ⟨expanded, few⟩, crc⟩ := clientContent_ok found
  cases done
  have next : x.cursor + 46 + r.clientHeader.nameLength + r.clientHeader.extraLength + r.clientHeader.commentLength =
      x.cursor + r.octets.length := by
    show x.cursor + 46 + r.name.length + r.extra.length + r.comment.length = _
    omega
  exact ⟨⟨r, utf8Text r.name, content⟩, ⟨rfl, safe, plain, data, expanded, crc⟩, rfl, stands, fit, fresh, few, by rw [next]⟩

theorem fails_readArchive {P : ClientArchiveError → Prop} (inside : offset + width ≤ bytes.length) :
    Fails P (readArchive bytes offset width) := by
  rw [readArchive, field?_of inside]
  exact fails_ok _

theorem readClientHeader_fails (bytes : Octets) (cursor : Nat) : Fails (· ≠ .outOfRange) (readClientHeader bytes cursor) := by
  refine Fails.bind (fails_demand (by decide)) fun _ demanded => ?_
  have inside := demand_eq_ok.mp demanded
  refine Fails.bind (fails_readArchive (by omega)) fun _ _ => Fails.bind (fails_demand (by decide)) fun _ _ => ?_
  iterate 9 refine Fails.bind (fails_readArchive (by omega)) fun _ _ => ?_
  exact fails_ok _

theorem clientDataOffset_fails (bytes : Octets) (header : ClientHeader) (name : Text) :
    Fails (· ≠ .outOfRange) (clientDataOffset bytes header name) := by
  refine Fails.bind (fails_demand (by decide)) fun _ demanded => ?_
  have inside := demand_eq_ok.mp demanded
  refine Fails.bind (fails_readArchive (by omega)) fun _ _ => Fails.bind (fails_demand (by decide)) fun _ _ => ?_
  refine Fails.bind (fails_readArchive (by omega)) fun _ _ => Fails.bind (fails_readArchive (by omega)) fun _ _ => ?_
  refine Fails.bind (fails_demand (by decide)) fun _ _ => Fails.bind (fails_readArchive (by omega)) fun _ _ => ?_
  refine Fails.bind (fails_demand (by decide)) fun _ _ => Fails.bind (fails_readArchive (by omega)) fun _ _ => ?_
  exact Fails.bind (fails_demand (by decide)) fun _ _ => fails_ok _

theorem clientContent_fails (bytes : Octets) (inflateRawSync : Octets → Option Octets) (header : ClientHeader) (name : Text)
    (expandedBytes : Nat) : Fails (· ≠ .outOfRange) (clientContent bytes inflateRawSync header name expandedBytes) := by
  have checks : ∀ content : Octets, Fails (· ≠ .outOfRange) (do
      demand (content.length = header.expandedSize ∧ expandedBytes + content.length ≤ maximumExpandedBytes)
        ClientArchiveError.expandedSize
      demand (crc32 content = header.expectedCrc) (.crc name)
      pure content) := fun content =>
    Fails.bind (fails_demand (by decide)) fun _ _ =>
      Fails.bind (fails_demand (by simp)) fun _ _ => fails_ok _
  unfold clientContent
  refine Fails.bind (fails_demand (by decide)) fun _ _ => Fails.bind (fails_demand (by simp)) fun _ _ => ?_
  refine Fails.bind (clientDataOffset_fails bytes header name) fun _ _ => Fails.bind (fails_demand (by decide)) fun _ _ => ?_
  split
  · exact Fails.bind (fails_ok _) fun _ _ => checks _
  · exact Fails.bind (fails_obtain? (by decide)) fun _ _ => checks _

theorem readClientEntry_fails (bytes : Octets) (inflateRawSync : Octets → Option Octets) (x : Unpacked) :
    Fails (· ≠ .outOfRange) (readClientEntry bytes inflateRawSync x) := by
  unfold readClientEntry
  refine Fails.bind (readClientHeader_fails bytes x.cursor) fun _ _ => Fails.bind (fails_demand (by decide)) fun _ _ => ?_
  refine Fails.bind ?_ fun _ _ => ?_
  · exact Fails.bind (fails_demand (by simp)) fun _ _ => Fails.bind (fails_demand (by simp)) fun _ _ => fails_ok _
  · split
    · exact fails_ok _
    · exact Fails.bind (clientContent_fails _ _ _ _ _) fun _ _ => fails_ok _

theorem findEnd_result (bytes : Octets) : ∃ result, findEndOfCentralDirectory bytes = obtain? result .endRecord ∧
    ∀ offset, result = some offset ↔ ∃ finish, EndsWith bytes offset finish := by
  unfold findEndOfCentralDirectory
  by_cases short : bytes.length < 22
  · refine ⟨none, by rw [if_pos short]; rfl, fun offset => ⟨fun never => (by cases never), ?_⟩⟩
    rintro ⟨finish, ends⟩
    have whole := ends.reads.closes.2
    omega
  · have each : ∀ offset ≤ bytes.length - 22, (do
        let signature ← readArchive bytes offset 4
        if signature = 0x06054b50 then do
          let commentLength ← readArchive bytes (offset + 20) 2
          pure (decide (offset + 22 + commentLength = bytes.length))
        else pure false : Except ClientArchiveError Bool) = .ok (decide (EndAt bytes offset)) := by
      intro offset low
      have signature : readArchive bytes offset 4 = .ok (readField bytes offset 4) := readArchive_eq_ok.mpr ⟨by omega, rfl⟩
      have comment : readArchive bytes (offset + 20) 2 = .ok (readField bytes (offset + 20) 2) :=
        readArchive_eq_ok.mpr ⟨by omega, rfl⟩
      rw [signature, ok_bind, comment]
      by_cases signed : readField bytes offset 4 = 0x06054b50
      · simp [EndAt, signed]
      · simp [EndAt, signed]
        rfl
    obtain ⟨result, searched, told⟩ := searchEnd_ends (by omega) each
    exact ⟨result, by rw [if_neg short, searched, ok_bind], told⟩

theorem findEnd_eq_ok : findEndOfCentralDirectory bytes = .ok offset ↔ ∃ finish, EndsWith bytes offset finish := by
  obtain ⟨result, found, told⟩ := findEnd_result bytes
  rw [found, obtain?_eq_ok, told]

theorem findEnd_fails (bytes : Octets) : Fails (· ≠ .outOfRange) (findEndOfCentralDirectory bytes) := by
  obtain ⟨result, found, -⟩ := findEnd_result bytes
  rw [found]
  exact fails_obtain? (by decide)

theorem clientDirectory_ok {entries centralSize centralOffset : Nat}
    (read : clientDirectory bytes = .ok (entries, centralSize, centralOffset)) :
    ∃ eocd finish, EndsWith bytes eocd finish ∧
      (finish.disk = 0 ∧ finish.directoryDisk = 0 ∧ finish.entriesOnDisk = finish.entries) ∧ finish.entries ≤ 200 ∧
      finish.directoryOffset + finish.directorySize ≤ eocd ∧ entries = finish.entries ∧ centralSize = finish.directorySize ∧
      centralOffset = finish.directoryOffset := by
  unfold clientDirectory at read
  simp only [bind_eq_ok, demand_eq_ok, readArchive_eq_ok] at read
  obtain ⟨eocd, found, entriesOf, ⟨-, entriesRead⟩, size, ⟨-, sizeRead⟩, start, ⟨-, startRead⟩, disk, ⟨-, diskRead⟩, directoryDisk,
    ⟨-, directoryRead⟩, onDisk, ⟨-, onDiskRead⟩, -, ⟨noDisk, noDirectory, same, before⟩, -, few, done⟩ := read
  obtain ⟨finish, ends⟩ := findEnd_eq_ok.mp found
  have reads := ends.reads
  rw [reads.entries] at entriesRead
  rw [reads.directorySize] at sizeRead
  rw [reads.directoryOffset] at startRead
  rw [reads.disk] at diskRead
  rw [reads.directoryDisk] at directoryRead
  rw [reads.entriesOnDisk] at onDiskRead
  subst entriesRead sizeRead startRead diskRead directoryRead onDiskRead
  cases done
  exact ⟨eocd, finish, ends, ⟨noDisk, noDirectory, same⟩, few, before, rfl, rfl, rfl⟩

theorem clientDirectory_fails (bytes : Octets) : Fails (· ≠ .outOfRange) (clientDirectory bytes) := by
  unfold clientDirectory
  refine Fails.bind (findEnd_fails bytes) fun eocd found => ?_
  obtain ⟨finish, ends⟩ := findEnd_eq_ok.mp found
  have whole := ends.whole
  have size := finish.length_octets
  iterate 6 refine Fails.bind (fails_readArchive (by omega)) fun _ _ => ?_
  exact Fails.bind (fails_demand (by decide)) fun _ _ => Fails.bind (fails_demand (by decide)) fun _ _ => fails_ok _

end Reading

section Disk

variable {bytes : Octets} {inflateRawSync : Octets → Option Octets} {destination path : List String} {s₀ s t : UnpackDisk}
  {name : Text} {content : Octets}

/-- A place for the payload's directory or a directory above it. -/
def Leads (destination path : List String) : Prop :=
  path <+: destination ∨ destination ++ [String.ofList payloadName] <+: path

/-- A place for a file of the payload. -/
def Below (destination path : List String) : Prop :=
  ∃ rest, rest ≠ [] ∧ path = destination ++ String.ofList payloadName :: rest

/-- Nothing of the disk is lost, and what is new is below the payload's directory or leads to it. -/
structure PayloadWithin (destination : List String) (s₀ s : UnpackDisk) : Prop where
  files : ∃ more, s.files = s₀.files ++ more ∧ ∀ file ∈ more, Below destination file.1
  directories : ∃ more, s.directories = s₀.directories ++ more ∧ ∀ directory ∈ more, Leads destination directory

/-- The place of a file of the payload. -/
def payloadPath (destination : List String) (name : Text) : List String := destination ++ pathSegments name

theorem PayloadWithin.refl (destination : List String) (s : UnpackDisk) : PayloadWithin destination s s :=
  ⟨⟨[], by simp⟩, ⟨[], by simp⟩⟩

theorem payloadPath_eq (safe : SafeName name) : resolvePath destination (pathSegments name) = payloadPath destination name := by
  refine resolvePath_plain fun segment member => ?_
  obtain ⟨part, listed, rfl⟩ := List.mem_map.mp member
  have plain := List.any_eq_false.mp safe.2.2.2 part listed
  simp only [unsafePart, Bool.or_eq_true, beq_iff_eq, not_or] at plain
  have apart : ∀ text : Text, part ≠ text → String.ofList part ≠ String.ofList text := fun text other same =>
    other (String.ofList_injective same)
  exact ⟨apart [] plain.1.1, apart ['.'] plain.1.2, apart ['.', '.'] plain.2⟩

theorem payloadPath_below (safe : SafeName name) : Below destination (payloadPath destination name) := by
  obtain ⟨back, rfl⟩ := safe.1
  have parts : splitText '/' (payloadName ++ ['/'] ++ back) = payloadName :: splitText '/' back := by
    rw [List.append_assoc]
    exact splitText_cons_part (by decide)
  refine ⟨pathSegments back, by simp [pathSegments, splitText_ne_nil], ?_⟩
  rw [payloadPath, pathSegments, parts]
  rfl

theorem prefix_of_mem_parents {parent : List String} (member : parent ∈ path.dropLast.inits) : parent <+: path :=
  ((List.mem_inits _ _).mp member).trans (List.dropLast_prefix _)

/-- Every directory above a file of the payload leads to it. -/
theorem Below.leads (below : Below destination path) {directory : List String} (above : directory <+: path) :
    Leads destination directory := by
  obtain ⟨rest, -, rfl⟩ := below
  have payload : destination ++ [String.ofList payloadName] <+: destination ++ String.ofList payloadName :: rest :=
    ⟨rest, by simp⟩
  rcases List.prefix_or_prefix_of_prefix above payload with short | long
  · rcases List.prefix_concat_iff.mp short with rfl | inside
    · exact .inr (List.prefix_refl _)
    · exact .inl inside
  · exact .inr long

theorem PayloadWithin.mkdir (within : PayloadWithin destination s₀ s) {paths : List (List String)}
    (lead : ∀ path ∈ paths, Leads destination path) : PayloadWithin destination s₀ (s.mkdir paths) := by
  obtain ⟨more, shape, all⟩ := within.directories
  refine ⟨within.files, more ++ paths.takeWhile fun path => !s.isFile path, ?_, List.forall_mem_append.mpr ⟨all, ?_⟩⟩
  · rw [UnpackDisk.mkdir, shape, List.append_assoc]
  · exact fun directory new => lead directory (List.takeWhile_subset _ new)

theorem PayloadWithin.append (within : PayloadWithin destination s₀ s) (below : Below destination path) (content : Octets)
    (files : t.files = s.files ++ [(path, content)]) (directories : t.directories = s.directories) :
    PayloadWithin destination s₀ t := by
  obtain ⟨more, shape, all⟩ := within.files
  refine ⟨⟨more ++ [(path, content)], by rw [files, shape, List.append_assoc], ?_⟩, directories ▸ within.directories⟩
  exact List.forall_mem_append.mpr ⟨all, List.forall_mem_singleton.mpr below⟩

theorem write_create (made : s.create path = some t) (content : Octets) :
    (t.write path content).files = s.files ++ [(path, content)] ∧ (t.write path content).directories = s.directories ∧
      t.files = s.files ++ [(path, [])] ∧ t.directories = s.directories := by
  unfold UnpackDisk.create at made
  split at made
  · cases made
  · next possible =>
    cases made
    have absent : path ∉ s.files.map Prod.fst := by
      intro there
      have taken : s.isFile path = true := List.contains_iff_mem.mpr there
      exact possible (by rw [taken, Bool.true_or, Bool.true_or])
    have each : ∀ file : List String × Octets, file ∈ s.files → (if file.1 = path then (path, content) else file) = file := by
      intro file member
      refine if_neg fun same : file.1 = path => absent ?_
      exact same ▸ List.mem_map_of_mem member
    have old : (s.files.map fun file : List String × Octets => if file.1 = path then (path, content) else file) = s.files := by
      rw [List.map_congr_left each, List.map_id']
    refine ⟨?_, rfl, rfl, rfl⟩
    show ((s.files ++ [(path, [])]).map fun file : List String × Octets => if file.1 = path then (path, content) else file) = _
    rw [List.map_append, old, List.map_singleton, if_pos rfl]

theorem unpackMkdir_wp (lead : ∀ parent ∈ path.inits, Leads destination parent) (within : PayloadWithin destination s₀ s) :
    (unpackMkdir path).wp anyAnswer (fun _ t => t.files = s.files ∧ PayloadWithin destination s₀ t)
      (fun error t => error ≠ .outOfRange ∧ PayloadWithin destination s₀ t) (fun _ t => PayloadWithin destination s₀ t) s := by
  refine ⟨within, fun reply _ => ?_⟩
  cases reply with
  | refused => exact ⟨by decide, within⟩
  | lost made => exact ⟨by decide, within.mkdir fun parent member => lead parent (List.take_subset _ _ member)⟩
  | done _ => exact wp_require.mpr ⟨fun _ => ⟨rfl, within.mkdir lead⟩, fun _ => ⟨by decide, within.mkdir lead⟩⟩

theorem unpackOpen_wp (below : Below destination path) (within : PayloadWithin destination s₀ s) :
    (unpackOpen path).wp anyAnswer (fun _ t => s.create path = some t ∧ PayloadWithin destination s₀ t)
      (fun error t => error ≠ .outOfRange ∧ PayloadWithin destination s₀ t) (fun _ t => PayloadWithin destination s₀ t) s := by
  have opened : PayloadWithin destination s₀ ((s.create path).getD s) := by
    cases created : s.create path with
    | none => exact within
    | some t => exact within.append below [] (write_create created []).2.2.1 (write_create created []).2.2.2
  refine ⟨within, fun reply _ => ?_⟩
  cases reply with
  | refused => exact ⟨by decide, within⟩
  | lost _ => exact ⟨by decide, opened⟩
  | done _ =>
    refine wp_require.mpr ⟨fun free => ?_, fun _ => ⟨by decide, opened⟩⟩
    obtain ⟨t, created⟩ := Option.isSome_iff_exists.mp free
    show s.create path = some ((s.create path).getD s) ∧ PayloadWithin destination s₀ ((s.create path).getD s)
    exact ⟨by rw [created, Option.getD_some], opened⟩

theorem unpackWrite_wp (below : Below destination path) (within : PayloadWithin destination s₀ s) (created : s.create path = some t)
    (now : PayloadWithin destination s₀ t) :
    (unpackWrite path content).wp anyAnswer (fun _ u => u.files = s.files ++ [(path, content)] ∧ PayloadWithin destination s₀ u)
      (fun error u => error ≠ .outOfRange ∧ PayloadWithin destination s₀ u) (fun _ u => PayloadWithin destination s₀ u) t := by
  have written : ∀ octets, PayloadWithin destination s₀ (t.write path octets) := fun octets =>
    within.append below octets (write_create created octets).1 (write_create created octets).2.1
  refine ⟨now, fun reply _ => ?_⟩
  cases reply with
  | refused => exact ⟨by decide, now⟩
  | lost count => exact ⟨by decide, written _⟩
  | done _ => exact ⟨(write_create created content).1, written content⟩

/-- A file is written where its name tells, or only a part of it is done. -/
theorem unpackFile_wp (safe : SafeName name) (within : PayloadWithin destination s₀ s) :
    (unpackFile destination name content).wp anyAnswer
      (fun _ t => t.files = s.files ++ [(payloadPath destination name, content)] ∧ PayloadWithin destination s₀ t)
      (fun error t => error ≠ .outOfRange ∧ PayloadWithin destination s₀ t) (fun _ t => PayloadWithin destination s₀ t) s := by
  have below : Below destination (payloadPath destination name) := payloadPath_below safe
  have lead : ∀ parent ∈ (payloadPath destination name).dropLast.inits, Leads destination parent := fun parent member =>
    below.leads (prefix_of_mem_parents member)
  unfold unpackFile
  rw [payloadPath_eq safe]
  refine wp_bind_of (unpackMkdir_wp lead within) fun _ u made => ?_
  refine wp_bind_of (unpackOpen_wp below made.2) fun _ v opened => ?_
  refine (unpackWrite_wp below made.2 opened.1 opened.2).mono (fun _ w written => ?_) (fun _ _ failed => failed)
    fun _ _ visited => visited
  exact ⟨by rw [written.1, made.1], written.2⟩

/-- What holds after some turns of the loop. -/
structure Unpacks (bytes : Octets) (inflateRawSync : Octets → Option Octets) (destination : List String) (centralOffset : Nat)
    (s₀ : UnpackDisk) (files : List ArchivedFile) (x : Unpacked) (s : UnpackDisk) : Prop where
  within : PayloadWithin destination s₀ s
  written : s.files = s₀.files ++ files.map fun f => (payloadPath destination f.name, f.content)
  archived : ∀ f ∈ files, Archived bytes inflateRawSync f
  seen : x.seen = files.map ArchivedFile.name
  apart : x.seen.Nodup
  stand : RecordsAt bytes centralOffset (files.map ArchivedFile.record)
  cursor : x.cursor = centralOffset + ((files.map ArchivedFile.record).flatMap CentralRecord.octets).length
  expanded : x.expandedBytes = (files.map fun f => f.content.length).sum
  few : x.expandedBytes ≤ maximumExpandedBytes

theorem recordsAt_concat {cursor : Nat} {records : List CentralRecord} {r : CentralRecord} (stand : RecordsAt bytes cursor records)
    (stands : StandsAt bytes (cursor + (records.flatMap CentralRecord.octets).length) r.octets) (fit : FieldsFit r.fields) :
    RecordsAt bytes cursor (records ++ [r]) := by
  refine ⟨?_, List.forall_mem_append.mpr ⟨stand.fit, List.forall_mem_singleton.mpr fit⟩⟩
  rw [List.flatMap_append, List.flatMap_singleton]
  exact standsAt_append.mpr ⟨stand.stands, stands⟩

theorem Unpacks.turn {centralOffset : Nat} {files : List ArchivedFile} {x : Unpacked} {f : ArchivedFile}
    (unpacks : Unpacks bytes inflateRawSync destination centralOffset s₀ files x s) (archived : Archived bytes inflateRawSync f)
    (stands : StandsAt bytes x.cursor f.record.octets) (fit : FieldsFit f.record.fields) (fresh : f.name ∉ x.seen)
    (few : x.expandedBytes + f.content.length ≤ maximumExpandedBytes)
    (written : t.files = s.files ++ [(payloadPath destination f.name, f.content)]) (within : PayloadWithin destination s₀ t) :
    Unpacks bytes inflateRawSync destination centralOffset s₀ (files ++ [f])
      ⟨x.seen ++ [f.name], x.cursor + f.record.octets.length, x.expandedBytes + f.content.length⟩ t where
  within := within
  written := by rw [written, unpacks.written, List.map_append, List.append_assoc]; rfl
  archived := List.forall_mem_append.mpr ⟨unpacks.archived, List.forall_mem_singleton.mpr archived⟩
  seen := by rw [unpacks.seen, List.map_append]; rfl
  apart := by
    refine List.nodup_append.mpr ⟨unpacks.apart, List.nodup_singleton _, fun name old other new same => ?_⟩
    exact fresh (List.mem_singleton.mp new ▸ same ▸ old)
  stand := by
    rw [List.map_append]
    exact recordsAt_concat unpacks.stand (unpacks.cursor ▸ stands) fit
  cursor := by
    rw [List.map_append, List.flatMap_append, List.length_append, List.map_singleton, List.flatMap_singleton, unpacks.cursor,
      Nat.add_assoc]
  expanded := by rw [unpacks.expanded, List.map_append, List.sum_append, List.map_singleton, List.sum_singleton]
  few := few

theorem unpackEntries_wp {centralOffset : Nat} {files : List ArchivedFile} {x : Unpacked} (entries : Nat)
    (unpacks : Unpacks bytes inflateRawSync destination centralOffset s₀ files x s) :
    (unpackEntries bytes inflateRawSync destination entries x).wp anyAnswer
      (fun y t => ∃ all, all.length = files.length + entries ∧ Unpacks bytes inflateRawSync destination centralOffset s₀ all y t)
      (fun error t => error ≠ .outOfRange ∧ PayloadWithin destination s₀ t) (fun _ t => PayloadWithin destination s₀ t) s := by
  induction entries generalizing files x s with
  | zero => exact ⟨files, rfl, unpacks⟩
  | succ entries ih =>
    rw [unpackEntries, wp_bind, wp_ofExcept]
    refine ⟨fun ⟨file, y⟩ read => ?_, fun error failed => ⟨readClientEntry_fails _ _ _ error failed, unpacks.within⟩⟩
    obtain ⟨f, archived, rfl, stands, fit, fresh, few, rfl⟩ := readClientEntry_ok read
    refine wp_bind_of (unpackFile_wp archived.safe unpacks.within) fun _ t written => ?_
    refine (ih (unpacks.turn archived stands fit fresh few written.1 written.2)).mono (fun y u unpacked => ?_)
      (fun _ _ failed => failed) fun _ _ visited => visited
    obtain ⟨all, count, done⟩ := unpacked
    exact ⟨all, by rw [count, List.length_append, List.length_singleton]; omega, done⟩

/-- The central directory lists the files, and the archive has them. -/
structure PayloadListed (bytes : Octets) (inflateRawSync : Octets → Option Octets) (offset : Nat) (finish : EndRecord)
    (files : List ArchivedFile) : Prop where
  ends : EndsWith bytes offset finish
  oneDisk : finish.disk = 0 ∧ finish.directoryDisk = 0 ∧ finish.entriesOnDisk = finish.entries
  before : finish.directoryOffset + finish.directorySize ≤ offset
  count : files.length = finish.entries
  entries : files.length ≤ 200
  stand : RecordsAt bytes finish.directoryOffset (files.map ArchivedFile.record)
  size : ((files.map ArchivedFile.record).flatMap CentralRecord.octets).length = finish.directorySize
  archived : ∀ f ∈ files, Archived bytes inflateRawSync f
  apart : (files.map ArchivedFile.name).Nodup
  expanded : (files.map fun f => f.content.length).sum ≤ maximumExpandedBytes

/-- What is on the disk when unpacking returned: exactly the files that the central directory lists. -/
structure PayloadUnpacked (bytes : Octets) (inflateRawSync : Octets → Option Octets) (destination : List String)
    (s t : UnpackDisk) (files : List ArchivedFile) : Prop where
  listed : ∃ offset finish, PayloadListed bytes inflateRawSync offset finish files
  written : t.files = s.files ++ files.map fun f => (payloadPath destination f.name, f.content)
  within : PayloadWithin destination s t

/-- However the calls of the file system end, and also when unpacking is killed at one of them, nothing but the payload below
the destination is made and no read leaves the archive; when unpacking returns, the payload is what the archive lists. -/
theorem extractClientArchive_unpacks (bytes : Octets) (inflateRawSync : Octets → Option Octets) (destination : List String)
    (s : UnpackDisk) :
    (extractClientArchive bytes inflateRawSync destination).wp anyAnswer
      (fun _ t => ∃ files, PayloadUnpacked bytes inflateRawSync destination s t files)
      (fun error t => error ≠ .outOfRange ∧ PayloadWithin destination s t) (fun _ t => PayloadWithin destination s t) s := by
  have same := PayloadWithin.refl destination s
  unfold extractClientArchive
  rw [wp_bind, wp_ofExcept]
  refine ⟨fun ⟨entries, centralSize, centralOffset⟩ read => ?_, fun error failed => ⟨clientDirectory_fails bytes error failed, same⟩⟩
  obtain ⟨offset, finish, ends, oneDisk, few, before, rfl, rfl, rfl⟩ := clientDirectory_ok read
  have start : Unpacks bytes inflateRawSync destination finish.directoryOffset s [] ⟨[], finish.directoryOffset, 0⟩ s :=
    ⟨same, by simp, fun _ never => (by cases never), rfl, List.nodup_nil, recordsAt_nil _, rfl, rfl, Nat.zero_le _⟩
  refine wp_bind_of (unpackEntries_wp finish.entries start) fun y t unpacked => ?_
  obtain ⟨files, count, unpacks⟩ := unpacked
  rw [List.length_nil, Nat.zero_add] at count
  refine wp_require.mpr ⟨fun whole => ⟨files, ⟨offset, finish, ?_⟩, unpacks.written, unpacks.within⟩,
    fun _ => ⟨by decide, unpacks.within⟩⟩
  have cursor := unpacks.cursor
  exact
    { ends
      oneDisk
      before
      count
      entries := count ▸ few
      stand := unpacks.stand
      size := by omega
      archived := unpacks.archived
      apart := unpacks.seen ▸ unpacks.apart
      expanded := unpacks.expanded ▸ unpacks.few }

end Disk

section Completion

variable {bytes : Octets} {inflateRawSync : Octets → Option Octets} {destination path : List String} {s : UnpackDisk}
  {cursor : Nat} {r : CentralRecord} {f : ArchivedFile} {name : Text} {content : Octets}

theorem readClientHeader_record (reads : CentralReads bytes cursor r) : readClientHeader bytes cursor = .ok r.clientHeader := by
  have inside := reads.inside
  have size := r.length_octets
  have signed : readArchive bytes cursor 4 = .ok 0x02014b50 := readArchive_eq_ok.mpr ⟨by omega, reads.signed⟩
  have flags := readArchive_eq_ok.mpr ⟨by omega, reads.flags⟩
  have method := readArchive_eq_ok.mpr ⟨by omega, reads.method⟩
  have crc := readArchive_eq_ok.mpr ⟨by omega, reads.crc⟩
  have compressed := readArchive_eq_ok.mpr ⟨by omega, reads.compressedSize⟩
  have expanded := readArchive_eq_ok.mpr ⟨by omega, reads.expandedSize⟩
  have nameLength := readArchive_eq_ok.mpr ⟨by omega, reads.nameLength⟩
  have extraLength := readArchive_eq_ok.mpr ⟨by omega, reads.extraLength⟩
  have commentLength := readArchive_eq_ok.mpr ⟨by omega, reads.commentLength⟩
  have localOffset := readArchive_eq_ok.mpr ⟨by omega, reads.localOffset⟩
  unfold readClientHeader
  rw [demand_of (by omega), ok_bind, signed, ok_bind, demand_of rfl, ok_bind, flags, ok_bind, method, ok_bind, crc, ok_bind,
    compressed, ok_bind, expanded, ok_bind, nameLength, ok_bind, extraLength, ok_bind, commentLength, ok_bind, localOffset]
  rfl

theorem clientDataOffset_header (header : ClientHeader) {h : LocalHeader} (stands : StandsAt bytes header.localOffset h.octets)
    (fit : FieldsFit h.fields) (named : utf8Text h.name = name) (flags : h.flags = header.flags)
    (method : h.method = header.method) :
    clientDataOffset bytes header name = .ok (header.localOffset + h.octets.length) ∧
      header.localOffset + h.octets.length ≤ bytes.length := by
  have size := h.length_octets
  have inside := stands.bound (List.ne_nil_of_length_pos (by omega))
  obtain ⟨fixed, rest⟩ := standsAt_append.mp stands
  have read := fieldsAt_stands fixed fit
  simp only [LocalHeader.fields, FieldsAt, Nat.add_assoc, Nat.reduceAdd] at read
  obtain ⟨signed, -, flagsRead, methodRead, -, -, -, -, -, nameRead, extraRead, -⟩ := read
  rw [length_fieldOctets, h.width_fields] at rest
  have part := (standsAt_append.mp rest).1.slice_eq
  have signed' := readArchive_eq_ok.mpr ⟨by omega, signed⟩
  have nameLength := readArchive_eq_ok.mpr ⟨by omega, nameRead⟩
  have extraLength := readArchive_eq_ok.mpr ⟨by omega, extraRead⟩
  have flags' := readArchive_eq_ok.mpr ⟨by omega, flagsRead.trans flags⟩
  have method' := readArchive_eq_ok.mpr ⟨by omega, methodRead.trans method⟩
  refine ⟨?_, inside⟩
  unfold clientDataOffset
  rw [demand_of (by omega), ok_bind, signed', ok_bind, demand_of rfl, ok_bind, nameLength, ok_bind, extraLength, ok_bind]
  dsimp only
  rw [part, demand_of named, ok_bind, flags', ok_bind, demand_of rfl, ok_bind, method', ok_bind, demand_of rfl, ok_bind, size,
    ← Nat.add_assoc, ← Nat.add_assoc]
  rfl

theorem clientContent_archived {expandedBytes : Nat} (archived : Archived bytes inflateRawSync f)
    (few : expandedBytes + f.content.length ≤ maximumExpandedBytes) :
    clientContent bytes inflateRawSync f.record.clientHeader f.name expandedBytes = .ok f.content := by
  obtain ⟨data, ⟨⟨h, stands, fit, named, flags, method, after⟩, size⟩, stored⟩ := archived.data
  obtain ⟨located, inside⟩ : clientDataOffset bytes f.record.clientHeader f.name =
      .ok (f.record.localOffset + h.octets.length) ∧ f.record.localOffset + h.octets.length ≤ bytes.length :=
    clientDataOffset_header f.record.clientHeader stands fit named flags method
  have methods : f.record.method = 0 ∨ f.record.method = 8 := stored.imp And.left And.left
  have bound : f.record.localOffset + h.octets.length + f.record.compressedSize ≤ bytes.length := by
    rcases List.eq_nil_or_concat data with rfl | ⟨front, last, rfl⟩
    · rw [← size]
      exact inside
    · rw [← size]
      exact after.bound (by simp)
  have part : slice bytes (f.record.localOffset + h.octets.length)
      (f.record.localOffset + h.octets.length + f.record.compressedSize) = data := size ▸ after.slice_eq
  have within : f.record.localOffset + h.octets.length + f.record.clientHeader.compressedSize ≤ bytes.length := bound
  have compressed : slice bytes (f.record.localOffset + h.octets.length)
      (f.record.localOffset + h.octets.length + f.record.clientHeader.compressedSize) = data := part
  have sizes : f.content.length = f.record.clientHeader.expandedSize ∧
      expandedBytes + f.content.length ≤ maximumExpandedBytes := ⟨archived.size, few⟩
  have crc : crc32 f.content = f.record.clientHeader.expectedCrc := archived.crc
  unfold clientContent
  rw [demand_of (show f.record.clientHeader.flags &&& 1 = 0 from archived.plain), ok_bind,
    demand_of (show f.record.clientHeader.method = 0 ∨ f.record.clientHeader.method = 8 from methods), ok_bind, located, ok_bind]
  dsimp only
  rw [demand_of within, ok_bind, compressed]
  rcases stored with ⟨zero, same⟩ | ⟨eight, inflated⟩
  · rw [if_pos (show f.record.clientHeader.method = 0 from zero), pure_bind, ← same, demand_of sizes, ok_bind, demand_of crc]
    rfl
  · have taken : obtain? (some f.content) ClientArchiveError.inflate = .ok f.content := rfl
    have other : f.record.clientHeader.method ≠ 0 := by
      show f.record.method ≠ 0
      omega
    rw [if_neg other, inflated, taken, ok_bind, demand_of sizes, ok_bind, demand_of crc]
    rfl

theorem readClientEntry_archived {x : Unpacked} (archived : Archived bytes inflateRawSync f)
    (stands : StandsAt bytes x.cursor f.record.octets) (fit : FieldsFit f.record.fields) (fresh : f.name ∉ x.seen)
    (few : x.expandedBytes + f.content.length ≤ maximumExpandedBytes) :
    readClientEntry bytes inflateRawSync x = .ok (some (f.name, f.content),
      ⟨x.seen ++ [f.name], x.cursor + f.record.octets.length, x.expandedBytes + f.content.length⟩) := by
  have reads := centralReads stands fit
  have inside := reads.inside
  have size := f.record.length_octets
  have next : x.cursor + 46 + f.record.clientHeader.nameLength + f.record.clientHeader.extraLength +
      f.record.clientHeader.commentLength = x.cursor + f.record.octets.length := by
    show x.cursor + 46 + f.record.name.length + f.record.extra.length + f.record.comment.length = _
    omega
  have named : utf8Text (slice bytes (x.cursor + 46) (x.cursor + 46 + f.record.clientHeader.nameLength)) = f.name := by
    rw [← archived.named]
    exact congrArg utf8Text reads.name
  unfold readClientEntry
  rw [readClientHeader_record reads, ok_bind]
  dsimp only
  rw [next, named, demand_of inside, ok_bind, validateEntryName_eq_ok.mpr ⟨archived.safe, fresh, rfl⟩, ok_bind,
    if_neg archived.safe.file, clientContent_archived archived few]
  rfl

theorem unpackMkdir_completes (clear : ∀ parent ∈ path.inits, s.isFile parent = false) :
    (unpackMkdir path).Completes (fun _ t => t = { s with directories := s.directories ++ path.inits }) s := by
  refine ⟨trivial, ?_⟩
  rintro _ ⟨answer, rfl⟩
  have all : path.inits.all (fun parent => !s.isFile parent) = true :=
    List.all_eq_true.mpr fun parent member => by rw [clear parent member]; rfl
  refine wp_require.mpr ⟨fun _ => ?_, fun fails => fails all⟩
  show s.mkdir path.inits = _
  rw [UnpackDisk.mkdir, List.takeWhile_eq_self_iff.mpr (List.all_eq_true.mp all)]

theorem unpackOpen_completes {t : UnpackDisk} (created : s.create path = some t) :
    (unpackOpen path).Completes (fun _ u => u = t) s := by
  refine ⟨trivial, ?_⟩
  rintro _ ⟨answer, rfl⟩
  refine wp_require.mpr ⟨fun _ => ?_, fun fails => fails (by rw [created]; rfl)⟩
  show (s.create path).getD s = t
  rw [created, Option.getD_some]

theorem unpackWrite_completes : (unpackWrite path content).Completes (fun _ u => u = s.write path content) s := by
  refine ⟨trivial, ?_⟩
  rintro _ ⟨answer, rfl⟩
  rfl

theorem unpackFile_completes (safe : SafeName name)
    (free : ∀ parent, parent <+: payloadPath destination name → s.isFile parent = false)
    (place : payloadPath destination name ∉ s.directories) :
    (unpackFile destination name content).Completes (fun _ t => t.files = s.files ++ [(payloadPath destination name, content)] ∧
      t.directories = s.directories ++ (payloadPath destination name).dropLast.inits) s := by
  have below : Below destination (payloadPath destination name) := payloadPath_below safe
  have filled : payloadPath destination name ≠ [] := by
    obtain ⟨rest, -, shape⟩ := below
    rw [shape]
    simp
  unfold unpackFile
  rw [payloadPath_eq safe]
  generalize payloadPath destination name = path at *
  have clear : ∀ parent ∈ path.dropLast.inits, s.isFile parent = false := fun parent member =>
    free parent (prefix_of_mem_parents member)
  have apart : path ∉ path.dropLast.inits := by
    intro member
    have short := ((List.mem_inits _ _).mp member).length_le
    have positive := List.length_pos_iff.mpr filled
    rw [List.length_dropLast] at short
    omega
  have created : ({ s with directories := s.directories ++ path.dropLast.inits } : UnpackDisk).create path =
      some { directories := s.directories ++ path.dropLast.inits, files := s.files ++ [(path, [])] } := by
    have vacant : s.isFile path = false := free path (List.prefix_refl _)
    refine if_neg ?_
    have parent : path.dropLast ∈ path.dropLast.inits := (List.mem_inits _ _).mpr (List.prefix_refl _)
    have absent : path ∉ s.directories ++ path.dropLast.inits := fun member =>
      (List.mem_append.mp member).elim place apart
    have there : path.dropLast ∈ s.directories ++ path.dropLast.inits := List.mem_append_right _ parent
    show ¬ (s.isFile path || (s.directories ++ path.dropLast.inits).contains path ||
      !(s.directories ++ path.dropLast.inits).contains path.dropLast) = true
    rw [vacant, List.contains_iff_mem.mpr there, Bool.eq_false_iff.mpr fun held => absent (List.contains_iff_mem.mp held)]
    decide
  refine .bind ((unpackMkdir_completes clear).mono fun _ u made => ?_)
  subst made
  refine .bind ((unpackOpen_completes created).mono fun _ u opened => ?_)
  subst opened
  refine unpackWrite_completes.mono fun _ u written => ?_
  subst written
  have result := write_create created content
  exact ⟨result.1, result.2.1⟩

/-- The places of files are free: no file is in the way of one, and none of them is a directory. -/
structure Free (destination : List String) (names : List Text) (s : UnpackDisk) : Prop where
  files : ∀ name ∈ names, ∀ parent, parent <+: payloadPath destination name → s.isFile parent = false
  directories : ∀ name ∈ names, payloadPath destination name ∉ s.directories

/-- No file is named like a directory of another. -/
def PathsApart (destination : List String) (names : List Text) : Prop :=
  names.Pairwise fun first second => ¬ payloadPath destination first <+: payloadPath destination second ∧
    ¬ payloadPath destination second <+: payloadPath destination first

theorem Free.turn {names : List Text} {t : UnpackDisk} (free : Free destination (name :: names) s)
    (apart : PathsApart destination (name :: names)) (files : t.files = s.files ++ [(payloadPath destination name, content)])
    (directories : t.directories = s.directories ++ (payloadPath destination name).dropLast.inits) :
    Free destination names t := by
  obtain ⟨first, -⟩ := List.pairwise_cons.mp apart
  constructor
  · intro other member parent above
    have old := free.files other (List.mem_cons_of_mem _ member) parent above
    have unlike : parent ≠ payloadPath destination name := fun same => (first other member).1 (same ▸ above)
    unfold UnpackDisk.isFile at old ⊢
    rw [files, List.map_append, List.map_singleton, Bool.eq_false_iff]
    intro held
    rcases List.mem_append.mp (List.contains_iff_mem.mp held) with there | new
    · exact Bool.eq_false_iff.mp old (List.contains_iff_mem.mpr there)
    · exact unlike (List.mem_singleton.mp new)
  · intro other member there
    rw [directories] at there
    rcases List.mem_append.mp there with old | new
    · exact free.directories other (List.mem_cons_of_mem _ member) old
    · exact (first other member).2 (prefix_of_mem_parents new)

theorem unpackEntries_completes (files : List ArchivedFile) {x : Unpacked}
    (archived : ∀ f ∈ files, Archived bytes inflateRawSync f) (stand : RecordsAt bytes x.cursor (files.map ArchivedFile.record))
    (fresh : ∀ f ∈ files, f.name ∉ x.seen) (nodup : (files.map ArchivedFile.name).Nodup)
    (few : x.expandedBytes + (files.map fun f => f.content.length).sum ≤ maximumExpandedBytes)
    (free : Free destination (files.map ArchivedFile.name) s) (apart : PathsApart destination (files.map ArchivedFile.name)) :
    (unpackEntries bytes inflateRawSync destination files.length x).Completes
      (fun y t => y.cursor = x.cursor + ((files.map ArchivedFile.record).flatMap CentralRecord.octets).length ∧
        t.files = s.files ++ files.map fun f => (payloadPath destination f.name, f.content)) s := by
  induction files generalizing x s with
  | nil => exact ⟨rfl, (List.append_nil _).symm⟩
  | cons f rest ih =>
    obtain ⟨⟨stands, fit⟩, later⟩ := recordsAt_cons.mp stand
    rw [List.map_cons, List.sum_cons, ← Nat.add_assoc] at few
    rw [List.map_cons, List.nodup_cons] at nodup
    have here := archived f List.mem_cons_self
    have read := readClientEntry_archived here stands fit (fresh f List.mem_cons_self) (by omega)
    rw [List.length_cons, unpackEntries]
    refine .bind (completes_ofExcept read ?_)
    refine Completes.bind ((unpackFile_completes here.safe (free.files f.name List.mem_cons_self)
      (free.directories f.name List.mem_cons_self)).mono fun _ t written => ?_)
    refine (ih (fun other member => archived other (List.mem_cons_of_mem _ member)) later (fun other member there => ?_) nodup.2 few
      (free.turn apart written.1 written.2) (List.pairwise_cons.mp apart).2).mono fun y u done => ?_
    · rcases List.mem_append.mp there with old | new
      · exact fresh other (List.mem_cons_of_mem _ member) old
      · exact nodup.1 (List.mem_singleton.mp new ▸ List.mem_map_of_mem member)
    · refine ⟨?_, ?_⟩
      · rw [done.1, List.map_cons, List.flatMap_cons, List.length_append, Nat.add_assoc]
      · rw [done.2, written.1, List.append_assoc]
        rfl

/-- An archive that lists files is unpacked when no call fails and the places of the files are free. -/
theorem extractClientArchive_completes {offset : Nat} {finish : EndRecord} {files : List ArchivedFile}
    (listed : PayloadListed bytes inflateRawSync offset finish files) (free : Free destination (files.map ArchivedFile.name) s)
    (apart : PathsApart destination (files.map ArchivedFile.name)) :
    (extractClientArchive bytes inflateRawSync destination).Completes
      (fun _ t => t.files = s.files ++ files.map fun f => (payloadPath destination f.name, f.content)) s := by
  have reads := listed.ends.reads
  have whole := listed.ends.whole
  have width := finish.length_octets
  have read : clientDirectory bytes = .ok (files.length, finish.directorySize, finish.directoryOffset) := by
    have entries := readArchive_eq_ok.mpr ⟨by omega, reads.entries⟩
    have size := readArchive_eq_ok.mpr ⟨by omega, reads.directorySize⟩
    have start := readArchive_eq_ok.mpr ⟨by omega, reads.directoryOffset⟩
    have disk := readArchive_eq_ok.mpr ⟨by omega, reads.disk⟩
    have directoryDisk := readArchive_eq_ok.mpr ⟨by omega, reads.directoryDisk⟩
    have onDisk := readArchive_eq_ok.mpr ⟨by omega, reads.entriesOnDisk⟩
    unfold clientDirectory
    rw [findEnd_eq_ok.mpr ⟨finish, listed.ends⟩, ok_bind, entries, ok_bind, size, ok_bind, start, ok_bind, disk, ok_bind,
      directoryDisk, ok_bind, onDisk, ok_bind, demand_of ⟨listed.oneDisk.1, listed.oneDisk.2.1, listed.oneDisk.2.2, listed.before⟩,
      ok_bind, demand_of (listed.count ▸ listed.entries), ok_bind, listed.count]
    rfl
  unfold extractClientArchive
  refine .bind (completes_ofExcept read ?_)
  refine Completes.bind ((unpackEntries_completes files listed.archived listed.stand (fun _ _ never => by cases never) listed.apart
    (by rw [Nat.zero_add]; exact listed.expanded) free apart).mono fun y t done => ?_)
  exact .require (by rw [done.1, listed.size]) done.2

/-- The files of a payload, one in a subdirectory. -/
def payloadFiles : List StoredFile :=
  [⟨"latex-renderer-client/a.tex".toList, [104, 105]⟩, ⟨"latex-renderer-client/fonts/b.otf".toList, [33]⟩]

/-- The archive with these files alone. -/
def payloadArchive : Octets :=
  payloadFiles.flatMap storedLocal ++ (storedRecords payloadFiles 0).flatMap CentralRecord.octets ++
    (storedEnd 2 ((storedRecords payloadFiles 0).flatMap CentralRecord.octets).length
      (payloadFiles.flatMap storedLocal).length).octets

/-- A file as the archive lists it. -/
def payloadEntry (file : StoredFile) (offset : Nat) : ArchivedFile where
  record := storedRecord file.entryName file.bytes offset
  name := file.name
  content := file.bytes

/-- The files as the archive lists them. -/
def payloadEntries : List ArchivedFile :=
  [payloadEntry ⟨"latex-renderer-client/a.tex".toList, [104, 105]⟩ 0,
    payloadEntry ⟨"latex-renderer-client/fonts/b.otf".toList, [33]⟩ 59]

theorem payloadEntry_archived {file : StoredFile} {offset : Nat} (inflateRawSync : Octets → Option Octets)
    (storable : Storable file) (stands : StandsAt payloadArchive offset (storedLocal file))
    (named : utf8Text file.entryName = file.name) (safe : SafeName file.name) :
    Archived payloadArchive inflateRawSync (payloadEntry file offset) := by
  obtain ⟨header, data⟩ := standsAt_append.mp stands
  exact ⟨named, safe, show (0x0800 : Nat) &&& 1 = 0 by decide,
    ⟨_, ⟨⟨_, header, storedHeader_fit storable, named, rfl, rfl, data⟩, rfl⟩, .inl ⟨rfl, rfl⟩⟩, rfl, rfl⟩

theorem payloadEntries_archived (inflateRawSync : Octets → Option Octets) :
    ∀ f ∈ payloadEntries, Archived payloadArchive inflateRawSync f := by
  intro f member
  simp only [payloadEntries, List.mem_cons, List.not_mem_nil, or_false] at member
  rcases member with rfl | rfl
  · refine payloadEntry_archived _ (by decide +kernel) (?_ : _ <+: _) (by decide +kernel) ⟨?_, ?_, ?_, ?_⟩ <;> decide +kernel
  · refine payloadEntry_archived _ (by decide +kernel) (?_ : _ <+: _) (by decide +kernel) ⟨?_, ?_, ?_, ?_⟩ <;> decide +kernel

theorem extractClientArchive_completes_example :
    (extractClientArchive payloadArchive (fun _ => none) ["srv"]).Completes
      (fun _ t => t.files = [(["srv", "latex-renderer-client", "a.tex"], [104, 105]),
        (["srv", "latex-renderer-client", "fonts", "b.otf"], [33])]) ⟨[], []⟩ := by
  have storable : ∀ file ∈ payloadFiles, Storable file := by decide +kernel
  have zipped : zipStoredFiles payloadFiles = .ok payloadArchive := zipStoredFiles_eq_ok.mpr ⟨by decide, storable, rfl⟩
  have short : payloadArchive.length < 2 ^ 32 := by decide +kernel
  have tex : texNames id (payloadFiles.map StoredFile.readName) ≠ [] := by decide +kernel
  have accepts := (accepts_zipStoredFiles zipped short tex).1
  have few : (payloadEntries.map fun f => f.content.length).sum ≤ maximumExpandedBytes := by decide +kernel
  have archived := payloadEntries_archived fun _ => none
  have nodup : (payloadEntries.map ArchivedFile.name).Nodup := by decide +kernel
  have records : payloadEntries.map ArchivedFile.record = storedRecords payloadFiles 0 := by decide +kernel
  have listed : PayloadListed payloadArchive (fun _ => none) (payloadArchive.length - 22) _ payloadEntries :=
    ⟨accepts.ends, accepts.oneDisk, accepts.before, rfl, by decide, records ▸ accepts.stand, records ▸ accepts.size, archived, nodup,
      few⟩
  have free : Free ["srv"] (payloadEntries.map ArchivedFile.name) ⟨[], []⟩ := ⟨fun _ _ _ _ => rfl, fun _ _ never => by cases never⟩
  have apart : PathsApart ["srv"] (payloadEntries.map ArchivedFile.name) := by
    unfold PathsApart
    decide +kernel
  have written : ([] : List (List String × Octets)) ++ payloadEntries.map (fun f => (payloadPath ["srv"] f.name, f.content)) =
      [(["srv", "latex-renderer-client", "a.tex"], [104, 105]),
        (["srv", "latex-renderer-client", "fonts", "b.otf"], [33])] := by decide +kernel
  clear accepts zipped short archived records nodup
  generalize payloadArchive = archive at listed ⊢
  generalize payloadEntries = entries at listed free apart written
  exact (extractClientArchive_completes listed free apart).mono fun _ t done => done.trans written

end Completion

end LatexRenderer
