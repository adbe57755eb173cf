import LatexRenderer.Model.Client.ZipArchives

/-! # Reading and writing ZIP archives

The browser accepts an archive exactly when an end record closes it and its central directory is a row of readable records,
and what it tells of the archive is told by their names. An archive that it wrote itself is read back as the files it has.
-/

namespace LatexRenderer

open Machine

section Records

variable {bytes : Octets} {cursor offset : Nat} {r : CentralRecord} {h : LocalHeader} {finish : EndRecord}

/-- Records stand one after another. -/
structure RecordsAt (bytes : Octets) (cursor : Nat) (records : List CentralRecord) : Prop where
  stands : StandsAt bytes cursor (records.flatMap CentralRecord.octets)
  fit : ∀ r ∈ records, FieldsFit r.fields

theorem CentralRecord.width_fields (r : CentralRecord) : fieldsWidth r.fields = 46 := by simp [fields, fieldsWidth]

theorem LocalHeader.width_fields (h : LocalHeader) : fieldsWidth h.fields = 30 := by simp [fields, fieldsWidth]

theorem EndRecord.width_fields (finish : EndRecord) : fieldsWidth finish.fields = 22 := by simp [fields, fieldsWidth]

theorem CentralRecord.length_octets (r : CentralRecord) :
    r.octets.length = 46 + r.name.length + r.extra.length + r.comment.length := by
  rw [octets, List.length_append, List.length_append, List.length_append, length_fieldOctets, width_fields]
  omega

theorem LocalHeader.length_octets (h : LocalHeader) : h.octets.length = 30 + h.name.length + h.extra.length := by
  rw [octets, List.length_append, List.length_append, length_fieldOctets, width_fields]
  omega

theorem EndRecord.length_octets (finish : EndRecord) : finish.octets.length = 22 + finish.comment.length := by
  rw [octets, List.length_append, length_fieldOctets, width_fields]

/-- The record that is read at an offset. -/
def centralRead (bytes : Octets) (cursor : Nat) : CentralRecord :=
  let nameEnd := cursor + 46 + readField bytes (cursor + 28) 2
  let extraEnd := nameEnd + readField bytes (cursor + 30) 2
  { versionMade := readField bytes (cursor + 4) 2
    versionNeeded := readField bytes (cursor + 6) 2
    flags := readField bytes (cursor + 8) 2
    method := readField bytes (cursor + 10) 2
    time := readField bytes (cursor + 12) 2
    date := readField bytes (cursor + 14) 2
    crc := readField bytes (cursor + 16) 4
    compressedSize := readField bytes (cursor + 20) 4
    expandedSize := readField bytes (cursor + 24) 4
    disk := readField bytes (cursor + 34) 2
    internal := readField bytes (cursor + 36) 2
    external := readField bytes (cursor + 38) 4
    localOffset := readField bytes (cursor + 42) 4
    name := slice bytes (cursor + 46) nameEnd
    extra := slice bytes nameEnd extraEnd
    comment := slice bytes extraEnd (extraEnd + readField bytes (cursor + 32) 2) }

theorem centralRead_stands (signed : readField bytes cursor 4 = 0x02014b50)
    (inside : cursor + 46 + readField bytes (cursor + 28) 2 + readField bytes (cursor + 30) 2 +
      readField bytes (cursor + 32) 2 ≤ bytes.length) :
    StandsAt bytes cursor (centralRead bytes cursor).octets ∧ FieldsFit (centralRead bytes cursor).fields ∧
      (centralRead bytes cursor).octets.length = 46 + readField bytes (cursor + 28) 2 + readField bytes (cursor + 30) 2 +
        readField bytes (cursor + 32) 2 := by
  have nameLength : (centralRead bytes cursor).name.length = readField bytes (cursor + 28) 2 := by
    rw [centralRead, length_slice _ (by omega)]
    omega
  have extraLength : (centralRead bytes cursor).extra.length = readField bytes (cursor + 30) 2 := by
    rw [centralRead, length_slice _ (by omega)]
    omega
  have commentLength : (centralRead bytes cursor).comment.length = readField bytes (cursor + 32) 2 := by
    rw [centralRead, length_slice _ (by omega)]
    omega
  have read : FieldsAt bytes cursor (centralRead bytes cursor).fields := by
    rw [CentralRecord.fields, nameLength, extraLength, commentLength]
    exact ⟨signed, rfl, rfl, rfl, rfl, rfl, rfl, rfl, rfl, rfl, rfl, rfl, rfl, rfl, rfl, rfl, rfl, trivial⟩
  have width := (centralRead bytes cursor).width_fields
  refine ⟨standsAt_append.mpr ⟨read.stands (by omega), ?_⟩, read.fit, ?_⟩
  · rw [length_fieldOctets, width]
    refine standsAt_append.mpr ⟨standsAt_append.mpr ⟨standsAt_slice _ _ _, ?_⟩, ?_⟩
    · rw [nameLength]
      exact standsAt_slice _ _ _
    · rw [List.length_append, nameLength, extraLength, ← Nat.add_assoc]
      exact standsAt_slice _ _ _
  · rw [CentralRecord.length_octets, nameLength, extraLength, commentLength]

/-- What is read of a record that stands in the buffer. -/
structure CentralReads (bytes : Octets) (cursor : Nat) (r : CentralRecord) : Prop where
  signed : readField bytes cursor 4 = 0x02014b50
  flags : readField bytes (cursor + 8) 2 = r.flags
  method : readField bytes (cursor + 10) 2 = r.method
  crc : readField bytes (cursor + 16) 4 = r.crc
  compressedSize : readField bytes (cursor + 20) 4 = r.compressedSize
  expandedSize : readField bytes (cursor + 24) 4 = r.expandedSize
  nameLength : readField bytes (cursor + 28) 2 = r.name.length
  extraLength : readField bytes (cursor + 30) 2 = r.extra.length
  commentLength : readField bytes (cursor + 32) 2 = r.comment.length
  localOffset : readField bytes (cursor + 42) 4 = r.localOffset
  name : slice bytes (cursor + 46) (cursor + 46 + r.name.length) = r.name
  inside : cursor + r.octets.length ≤ bytes.length

theorem centralReads (stands : StandsAt bytes cursor r.octets) (fit : FieldsFit r.fields) : CentralReads bytes cursor r := by
  have some : r.octets ≠ [] := by
    rw [← List.length_pos_iff, CentralRecord.length_octets]
    omega
  have inside := stands.bound some
  obtain ⟨fixed, rest⟩ := standsAt_append.mp stands
  have read := fieldsAt_stands fixed fit
  simp only [CentralRecord.fields, FieldsAt, Nat.add_assoc, Nat.reduceAdd] at read
  obtain ⟨signed, -, -, flags, method, -, -, crc, compressed, expanded, names, extras, comments, -, -, -, offset, -⟩ := read
  rw [length_fieldOctets, r.width_fields] at rest
  exact ⟨signed, flags, method, crc, compressed, expanded, names, extras, comments, offset,
    (standsAt_append.mp (standsAt_append.mp rest).1).1.slice_eq, inside⟩

end Records

section Ends

variable {bytes : Octets} {offset : Nat} {finish : EndRecord}

/-- The loop over the offsets finds the last one that fits. -/
theorem searchEnd_spec {ε : Type} {found : Nat → Except ε Bool} {P : Nat → Prop} [DecidablePred P] {minimum start : Nat}
    (each : ∀ offset ≤ start, found offset = .ok (decide (P offset))) (low : minimum ≤ start) :
    ∃ result, searchEnd found minimum start = .ok result ∧
      ∀ offset, result = some offset ↔ minimum ≤ offset ∧ offset ≤ start ∧ P offset ∧
        ∀ later, offset < later → later ≤ start → ¬ P later := by
  induction start with
  | zero =>
    refine ⟨if P 0 then some 0 else none, ?_, fun offset => ?_⟩
    · rw [searchEnd, each 0 le_rfl, ok_bind]
      by_cases here : P 0 <;> simp [here, pure, Except.pure]
    · by_cases here : P 0
      · rw [if_pos here, Option.some.injEq]
        constructor
        · rintro rfl
          exact ⟨low, le_rfl, here, fun later above below => by omega⟩
        · rintro ⟨-, top, -, -⟩
          omega
      · rw [if_neg here]
        constructor
        · intro never
          cases never
        · rintro ⟨-, top, holds, -⟩
          obtain rfl : offset = 0 := by omega
          exact absurd holds here
  | succ start ih =>
    rw [searchEnd, each _ le_rfl, ok_bind]
    by_cases here : P (start + 1)
    · refine ⟨some (start + 1), by simp [here, pure, Except.pure], fun offset => ?_⟩
      rw [Option.some.injEq]
      constructor
      · rintro rfl
        exact ⟨low, le_rfl, here, fun later above below => by omega⟩
      · rintro ⟨-, top, -, last⟩
        by_contra other
        exact last (start + 1) (by omega) le_rfl here
    · by_cases done : start + 1 ≤ minimum
      · refine ⟨none, by simp [here, done, pure, Except.pure], fun offset => ⟨fun never => (by cases never), ?_⟩⟩
        rintro ⟨above, top, holds, -⟩
        obtain rfl : offset = start + 1 := by omega
        exact absurd holds here
      · obtain ⟨result, searched, told⟩ := ih (fun offset below => each offset (by omega)) (by omega)
        refine ⟨result, by simpa [here, done] using searched, fun offset => (told offset).trans ⟨?_, ?_⟩⟩
        · rintro ⟨above, top, holds, last⟩
          refine ⟨above, by omega, holds, fun later beyond below => ?_⟩
          rcases Nat.lt_or_ge start later with next | within
          · obtain rfl : later = start + 1 := by omega
            exact here
          · exact last later beyond within
        · rintro ⟨above, top, holds, last⟩
          have within : offset ≠ start + 1 := fun same => here (same ▸ holds)
          exact ⟨above, by omega, holds, fun later beyond below => last later beyond (by omega)⟩

/-- What looks like an end record that closes the archive. -/
def EndAt (bytes : Octets) (offset : Nat) : Prop :=
  readField bytes offset 4 = 0x06054b50 ∧ offset + 22 + readField bytes (offset + 20) 2 = bytes.length

instance (bytes : Octets) : DecidablePred (EndAt bytes) := fun offset =>
  inferInstanceAs (Decidable (readField bytes offset 4 = 0x06054b50 ∧ offset + 22 + readField bytes (offset + 20) 2 = bytes.length))

/-- An end record closes the archive, and nothing behind its start looks like one. -/
structure EndsWith (bytes : Octets) (offset : Nat) (finish : EndRecord) : Prop where
  stands : StandsAt bytes offset finish.octets
  fit : FieldsFit finish.fields
  whole : offset + finish.octets.length = bytes.length
  last : ∀ later, offset < later → ¬ EndAt bytes later

/-- What is read of the end record. -/
structure EndReads (bytes : Octets) (offset : Nat) (finish : EndRecord) : Prop where
  closes : EndAt bytes offset
  disk : readField bytes (offset + 4) 2 = finish.disk
  directoryDisk : readField bytes (offset + 6) 2 = finish.directoryDisk
  entriesOnDisk : readField bytes (offset + 8) 2 = finish.entriesOnDisk
  entries : readField bytes (offset + 10) 2 = finish.entries
  directorySize : readField bytes (offset + 12) 4 = finish.directorySize
  directoryOffset : readField bytes (offset + 16) 4 = finish.directoryOffset

theorem EndsWith.reads (ends : EndsWith bytes offset finish) : EndReads bytes offset finish := by
  have whole := ends.whole
  rw [EndRecord.length_octets, ← Nat.add_assoc] at whole
  have read := fieldsAt_stands (standsAt_append.mp ends.stands).1 ends.fit
  simp only [EndRecord.fields, FieldsAt, Nat.add_assoc, Nat.reduceAdd] at read
  obtain ⟨signed, disk, directoryDisk, onDisk, entries, size, start, comment, -⟩ := read
  exact ⟨⟨signed, by rw [comment]; exact whole⟩, disk, directoryDisk, onDisk, entries, size, start⟩

/-- The last offset that looks like an end record has one. -/
theorem exists_endsWith (closes : EndAt bytes offset) (last : ∀ later, offset < later → ¬ EndAt bytes later) :
    ∃ finish, EndsWith bytes offset finish := by
  obtain ⟨signed, whole⟩ := closes
  have comment : (slice bytes (offset + 22) bytes.length).length = readField bytes (offset + 20) 2 := by
    rw [length_slice _ le_rfl]
    omega
  let finish : EndRecord :=
    { disk := readField bytes (offset + 4) 2
      directoryDisk := readField bytes (offset + 6) 2
      entriesOnDisk := readField bytes (offset + 8) 2
      entries := readField bytes (offset + 10) 2
      directorySize := readField bytes (offset + 12) 4
      directoryOffset := readField bytes (offset + 16) 4
      comment := slice bytes (offset + 22) bytes.length }
  have read : FieldsAt bytes offset finish.fields := by
    rw [EndRecord.fields, show finish.comment.length = _ from comment]
    exact ⟨signed, rfl, rfl, rfl, rfl, rfl, rfl, rfl, trivial⟩
  have width := finish.width_fields
  refine ⟨finish, standsAt_append.mpr ⟨read.stands (by omega), ?_⟩, read.fit, ?_, last⟩
  · rw [length_fieldOctets, width]
    exact standsAt_slice _ _ _
  · rw [EndRecord.length_octets, show finish.comment.length = _ from comment]
    omega

/-- Both readers find the end record, or there is none. -/
theorem searchEnd_ends {ε : Type} {found : Nat → Except ε Bool} (long : 22 ≤ bytes.length)
    (each : ∀ offset ≤ bytes.length - 22, found offset = .ok (decide (EndAt bytes offset))) :
    ∃ result, searchEnd found (bytes.length - 65557) (bytes.length - 22) = .ok result ∧
      ∀ offset, result = some offset ↔ ∃ finish, EndsWith bytes offset finish := by
  have low : bytes.length - 65557 ≤ bytes.length - 22 := by omega
  obtain ⟨result, searched, told⟩ := searchEnd_spec each low
  refine ⟨result, searched, fun offset => (told offset).trans ⟨?_, ?_⟩⟩
  · rintro ⟨-, -, closes, last⟩
    refine exists_endsWith closes fun later beyond there => last later beyond ?_ there
    have whole := there.2
    omega
  · rintro ⟨finish, ends⟩
    have closes := ends.reads.closes
    have whole := closes.2
    have small := readField_lt bytes (offset + 20) 2
    exact ⟨by omega, by omega, closes, fun later beyond _ => ends.last later beyond⟩

end Ends

section Inspection

variable {bytes : Octets} {toLowerCase : Text → Text} {directoryEnd : Nat} {x y : Inspected} {r : CentralRecord} {name : Text}

/-- The names of files. -/
def fileNames (names : List Text) : List Text := names.filter fun name => decide (name.getLast? ≠ some '/')

/-- The names of TeX files. -/
def texNames (toLowerCase : Text → Text) (names : List Text) : List Text :=
  (fileNames names).filter fun name => decide (".tex".toList <:+ toLowerCase name)

/-- A record whose name is read. -/
def Readable (r : CentralRecord) (name : Text) : Prop :=
  r.flags &&& 0x1 = 0 ∧ (r.flags &&& 0x800 ≠ 0 ∨ r.name.all (fun value => decide (value.toNat ≤ 0x7f)) = true) ∧
    decodeFatal r.name = some name

/-- What names add. -/
def Inspected.add (toLowerCase : Text → Text) (names : List Text) (x : Inspected) : Inspected :=
  { x with
    files := x.files + (fileNames names).length
    mainTex := x.mainTex || decide ("main.tex".toList ∈ fileNames names)
    texFiles := x.texFiles ++ texNames toLowerCase names }

theorem fileNames_cons (name : Text) (names : List Text) : fileNames (name :: names) = fileNames [name] ++ fileNames names :=
  List.filter_append [name] names

theorem texNames_cons (name : Text) (names : List Text) :
    texNames toLowerCase (name :: names) = texNames toLowerCase [name] ++ texNames toLowerCase names := by
  rw [texNames, fileNames_cons, List.filter_append]
  rfl

theorem Inspected.add_nil (x : Inspected) : x.add toLowerCase [] = x := by simp [add, fileNames, texNames]

theorem Inspected.add_cons (cursor last : Nat) (names : List Text) :
    { ({ x.add toLowerCase [name] with cursor } : Inspected).add toLowerCase names with cursor := last } =
      { x.add toLowerCase (name :: names) with cursor := last } := by
  simp only [add]
  rw [fileNames_cons name names, texNames_cons name names]
  simp only [List.length_append, List.mem_append, Bool.decide_or, Bool.or_assoc, Nat.add_assoc, List.append_assoc]

/-- A name is recorded while there are not too many files. -/
theorem Inspected.record_eq_ok (few : x.files ≤ 500) :
    x.record toLowerCase name = .ok y ↔ x.files + (fileNames [name]).length ≤ 500 ∧ y = x.add toLowerCase [name] := by
  unfold record add texNames
  generalize "main.tex".toList = main
  generalize ".tex".toList = tex
  by_cases directory : name.getLast? = some '/'
  · have empty : fileNames [name] = [] := by simp [fileNames, directory]
    rw [if_pos directory, empty]
    have same : x = y ↔ y = x := eq_comm
    simpa [few] using same
  · have one : fileNames [name] = [name] := by simp [fileNames, directory]
    have same : decide (name = main) = decide (main ∈ [name]) := by simp [eq_comm]
    have kept : (if tex <:+ toLowerCase name then x.texFiles ++ [name] else x.texFiles) =
        x.texFiles ++ [name].filter fun name => decide (tex <:+ toLowerCase name) := by
      by_cases ends : tex <:+ toLowerCase name <;> simp [ends]
    rw [if_neg directory, one, demand_bind_eq_ok, same, kept]
    exact and_congr_right fun _ => ⟨fun done => (Except.ok.inj done).symm, fun done => done ▸ rfl⟩

theorem uint16_eq_ok {offset value : Nat} :
    uint16 bytes offset = .ok value ↔ offset + 2 ≤ bytes.length ∧ readField bytes offset 2 = value :=
  obtain?_eq_ok.trans field?_eq_some

/-- A readable record that lies in the directory is inspected. -/
theorem inspectEntry_record (reads : CentralReads bytes x.cursor r) (within : x.cursor + r.octets.length ≤ directoryEnd)
    (readable : Readable r name) :
    inspectEntry bytes toLowerCase directoryEnd x =
      x.record toLowerCase name >>= fun z => pure { z with cursor := x.cursor + r.octets.length } := by
  have inside := reads.inside
  have size := r.length_octets
  have signed : signature bytes x.cursor 0x02014b50 = true := by
    rw [signature, field?_of (by omega), reads.signed]
    rfl
  have flags : uint16 bytes (x.cursor + 8) = .ok r.flags := uint16_eq_ok.mpr ⟨by omega, reads.flags⟩
  have nameLength : uint16 bytes (x.cursor + 28) = .ok r.name.length := uint16_eq_ok.mpr ⟨by omega, reads.nameLength⟩
  have extraLength : uint16 bytes (x.cursor + 30) = .ok r.extra.length := uint16_eq_ok.mpr ⟨by omega, reads.extraLength⟩
  have commentLength : uint16 bytes (x.cursor + 32) = .ok r.comment.length := uint16_eq_ok.mpr ⟨by omega, reads.commentLength⟩
  have next : x.cursor + 46 + r.name.length + r.extra.length + r.comment.length = x.cursor + r.octets.length := by omega
  unfold inspectEntry
  simp only [flags, nameLength, extraLength, commentLength, ok_bind, demand_of readable.1, reads.name,
    demand_of readable.2.1, readable.2.2, obtain?, next, demand_of within]
  rw [demand_of ⟨signed, by omega⟩, ok_bind]

theorem inspectEntry_ok (bound : directoryEnd ≤ bytes.length) (inspected : inspectEntry bytes toLowerCase directoryEnd x = .ok y) :
    ∃ r name, StandsAt bytes x.cursor r.octets ∧ FieldsFit r.fields ∧ x.cursor + r.octets.length ≤ directoryEnd ∧
      Readable r name ∧ ∃ z, x.record toLowerCase name = .ok z ∧ y = { z with cursor := x.cursor + r.octets.length } := by
  unfold inspectEntry at inspected
  simp only [bind_eq_ok, demand_eq_ok, obtain?_eq_ok, uint16_eq_ok] at inspected
  obtain ⟨-, ⟨signed, -⟩, flags, ⟨-, flagsRead⟩, -, plain, nameLength, ⟨-, nameRead⟩, extraLength, ⟨-, extraRead⟩,
    commentLength, ⟨-, commentRead⟩, -, within, -, ascii, name, decoded, z, recorded, done⟩ := inspected
  rw [signature, beq_iff_eq, field?_eq_some] at signed
  subst flagsRead nameRead extraRead commentRead
  obtain ⟨stands, fit, size⟩ := centralRead_stands signed.2 (by omega)
  have total : x.cursor + (centralRead bytes x.cursor).octets.length = x.cursor + 46 + readField bytes (x.cursor + 28) 2 +
      readField bytes (x.cursor + 30) 2 + readField bytes (x.cursor + 32) 2 := by omega
  refine ⟨centralRead bytes x.cursor, name, stands, fit, by omega, ⟨plain, ascii, decoded⟩, z, recorded, ?_⟩
  rw [total]
  exact (Except.ok.inj done).symm

theorem recordsAt_nil (cursor : Nat) : RecordsAt bytes cursor [] := ⟨List.nil_prefix, by simp⟩

theorem recordsAt_cons {cursor : Nat} {records : List CentralRecord} :
    RecordsAt bytes cursor (r :: records) ↔
      (StandsAt bytes cursor r.octets ∧ FieldsFit r.fields) ∧ RecordsAt bytes (cursor + r.octets.length) records := by
  constructor
  · rintro ⟨stands, fit⟩
    obtain ⟨first, rest⟩ := standsAt_append.mp (List.flatMap_cons ▸ stands)
    obtain ⟨firstFits, restFits⟩ := List.forall_mem_cons.mp fit
    exact ⟨⟨first, firstFits⟩, rest, restFits⟩
  · rintro ⟨⟨first, firstFits⟩, rest, restFits⟩
    exact ⟨List.flatMap_cons ▸ standsAt_append.mpr ⟨first, rest⟩, List.forall_mem_cons.mpr ⟨firstFits, restFits⟩⟩

/-- The loop goes through exactly the readable records that stand in the directory. -/
theorem inspectEntries_eq_ok {entries : Nat} (bound : directoryEnd ≤ bytes.length) (few : x.files ≤ 500)
    (within : x.cursor ≤ directoryEnd) :
    inspectEntries bytes toLowerCase directoryEnd entries x = .ok y ↔
      ∃ records names, records.length = entries ∧ RecordsAt bytes x.cursor records ∧
        x.cursor + (records.flatMap CentralRecord.octets).length ≤ directoryEnd ∧ List.Forall₂ Readable records names ∧
        x.files + (fileNames names).length ≤ 500 ∧
        y = { x.add toLowerCase names with cursor := x.cursor + (records.flatMap CentralRecord.octets).length } := by
  induction entries generalizing x with
  | zero =>
    rw [inspectEntries]
    constructor
    · rintro ⟨⟩
      exact ⟨[], [], rfl, recordsAt_nil _, within, .nil, few, by rw [Inspected.add_nil]; rfl⟩
    · rintro ⟨records, names, none, -, -, named, -, rfl⟩
      obtain rfl := List.length_eq_zero_iff.mp none
      cases named
      rw [Inspected.add_nil]
      rfl
  | succ entries ih =>
    rw [inspectEntries, bind_eq_ok]
    constructor
    · rintro ⟨turned, inspected, rest⟩
      obtain ⟨r, name, stands, fit, inside, readable, z, recorded, rfl⟩ := inspectEntry_ok bound inspected
      obtain ⟨fewer, rfl⟩ := (Inspected.record_eq_ok few).mp recorded
      obtain ⟨records, names, count, later, ends, named, total, rfl⟩ := (ih fewer inside).mp rest
      refine ⟨r :: records, name :: names, by rw [List.length_cons, count], recordsAt_cons.mpr ⟨⟨stands, fit⟩, later⟩, ?_,
        .cons readable named, ?_, ?_⟩
      · rw [List.flatMap_cons, List.length_append, ← Nat.add_assoc]
        exact ends
      · rw [fileNames_cons, List.length_append, ← Nat.add_assoc]
        exact total
      · rw [List.flatMap_cons, List.length_append, ← Nat.add_assoc, Inspected.add_cons]
    · rintro ⟨records, names, count, stand, ends, named, total, rfl⟩
      cases named with
      | nil => cases count
      | @cons r name records names readable named =>
        obtain ⟨⟨stands, fit⟩, later⟩ := recordsAt_cons.mp stand
        rw [List.flatMap_cons, List.length_append, ← Nat.add_assoc] at ends
        rw [fileNames_cons, List.length_append, ← Nat.add_assoc] at total
        have recorded : x.record toLowerCase name = .ok (x.add toLowerCase [name]) :=
          (Inspected.record_eq_ok few).mpr ⟨by omega, rfl⟩
        refine ⟨{ x.add toLowerCase [name] with cursor := x.cursor + r.octets.length }, ?_, ?_⟩
        · rw [inspectEntry_record (centralReads stands fit) (by omega) readable, recorded]
          rfl
        · have fewer : (x.add toLowerCase [name]).files ≤ 500 := by
            show x.files + (fileNames [name]).length ≤ 500
            omega
          refine (ih (x := { x.add toLowerCase [name] with cursor := x.cursor + r.octets.length }) fewer
            (show x.cursor + r.octets.length ≤ directoryEnd by omega)).mpr
            ⟨records, names, Nat.succ.inj count, later, ends, named, total, ?_⟩
          rw [List.flatMap_cons, List.length_append, ← Nat.add_assoc, Inspected.add_cons]

/-- What the browser accepts: an end record closes the archive, and its central directory is a row of readable records. -/
structure Accepts (bytes : Octets) (toLowerCase : Text → Text) (offset : Nat) (finish : EndRecord)
    (records : List CentralRecord) (names : List Text) : Prop where
  ends : EndsWith bytes offset finish
  oneDisk : finish.disk = 0 ∧ finish.directoryDisk = 0 ∧ finish.entriesOnDisk = finish.entries
  plain : finish.entries ≠ 0xffff ∧ finish.directorySize ≠ 0xffffffff ∧ finish.directoryOffset ≠ 0xffffffff
  before : finish.directoryOffset + finish.directorySize ≤ offset
  count : records.length = finish.entries
  stand : RecordsAt bytes finish.directoryOffset records
  size : (records.flatMap CentralRecord.octets).length = finish.directorySize
  named : List.Forall₂ Readable records names
  few : (fileNames names).length ≤ 500
  tex : texNames toLowerCase names ≠ []

theorem uint32_eq_ok {offset value : Nat} :
    uint32 bytes offset = .ok value ↔ offset + 4 ≤ bytes.length ∧ readField bytes offset 4 = value :=
  obtain?_eq_ok.trans field?_eq_some

/-- The test of the browser's loop is the one for an end record. -/
theorem inspectEnd {offset : Nat} (low : offset ≤ bytes.length - 22) (long : 22 ≤ bytes.length) :
    (if signature bytes offset 0x06054b50 = true then do
      let commentLength ← uint16 bytes (offset + 20)
      pure (decide (offset + 22 + commentLength = bytes.length))
    else pure false : Except InspectionError Bool) = .ok (decide (EndAt bytes offset)) := by
  have comment : uint16 bytes (offset + 20) = .ok (readField bytes (offset + 20) 2) := uint16_eq_ok.mpr ⟨by omega, rfl⟩
  rw [signature, field?_of (by omega), comment]
  by_cases signed : readField bytes offset 4 = 0x06054b50
  · simp [EndAt, signed]
  · simp [EndAt, signed]
    rfl

theorem inspectZipCandidates_accepts {offset : Nat} {finish : EndRecord} {records : List CentralRecord} {names : List Text}
    (accepts : Accepts bytes toLowerCase offset finish records names) :
    inspectZipCandidates bytes toLowerCase = .ok ⟨records.length, (fileNames names).length, texNames toLowerCase names,
      decide ("main.tex".toList ∈ fileNames names)⟩ := by
  have whole := accepts.ends.whole
  have size := finish.length_octets
  have before := accepts.before
  have long : 22 ≤ bytes.length := by omega
  have reads := accepts.ends.reads
  have total := accepts.size
  obtain ⟨found, searched, told⟩ := searchEnd_ends long fun offset low => inspectEnd low long
  obtain rfl := (told offset).mpr ⟨finish, accepts.ends⟩
  have inside : finish.directoryOffset + (records.flatMap CentralRecord.octets).length ≤
      finish.directoryOffset + finish.directorySize := by omega
  have bound : finish.directoryOffset + finish.directorySize ≤ bytes.length := by omega
  unfold inspectZipCandidates
  rw [demand_bind_eq_ok]
  refine ⟨long, ?_⟩
  rw [searched, ok_bind]
  simp only [bind_eq_ok, demand_eq_ok, obtain?_eq_ok, uint16_eq_ok, uint32_eq_ok]
  refine ⟨offset, rfl, finish.disk, ⟨by omega, reads.disk⟩, finish.directoryDisk, ⟨by omega, reads.directoryDisk⟩,
    finish.entriesOnDisk, ⟨by omega, reads.entriesOnDisk⟩, finish.entries, ⟨by omega, reads.entries⟩, finish.directorySize,
    ⟨by omega, reads.directorySize⟩, finish.directoryOffset, ⟨by omega, reads.directoryOffset⟩, ⟨⟩, accepts.oneDisk, ⟨⟩,
    accepts.plain, ⟨⟩, ⟨before, by omega⟩, _,
    (inspectEntries_eq_ok (x := ⟨finish.directoryOffset, 0, false, []⟩) bound (Nat.zero_le _) (Nat.le_add_right _ _)).mpr
      ⟨records, names, accepts.count, accepts.stand, inside, accepts.named, ?_, rfl⟩, ⟨⟩, ?_, ⟨⟩, ?_, ?_⟩
  · rw [Nat.zero_add]
    exact accepts.few
  · rw [total]
  · exact accepts.tex
  · rw [accepts.count]
    simp only [Inspected.add, Nat.zero_add, List.nil_append, Bool.false_or]
    rfl

/-- The browser accepts exactly such archives, and tells what the names of the records are. -/
theorem inspectZipCandidates_eq_ok {result : CandidateInspection} :
    inspectZipCandidates bytes toLowerCase = .ok result ↔
      ∃ offset finish records names, Accepts bytes toLowerCase offset finish records names ∧
        result = ⟨records.length, (fileNames names).length, texNames toLowerCase names,
          decide ("main.tex".toList ∈ fileNames names)⟩ := by
  constructor
  · intro run
    unfold inspectZipCandidates at run
    obtain ⟨long, run⟩ := demand_bind_eq_ok.mp run
    obtain ⟨found, searched, told⟩ := searchEnd_ends long fun offset low => inspectEnd low long
    rw [searched, ok_bind] at run
    simp only [bind_eq_ok, demand_eq_ok, obtain?_eq_ok, uint16_eq_ok, uint32_eq_ok] at run
    obtain ⟨offset, known, disk, ⟨-, diskRead⟩, directoryDisk, ⟨-, directoryRead⟩, entriesOnDisk, ⟨-, onDiskRead⟩, entries,
      ⟨-, entriesRead⟩, directorySize, ⟨-, sizeRead⟩, directoryOffset, ⟨-, offsetRead⟩, -, oneDisk, -, plain, -,
      ⟨before, bound⟩, x, inspected, -, whole, -, tex, done⟩ := run
    obtain ⟨finish, ends⟩ := (told offset).mp known
    have reads := ends.reads
    rw [reads.disk] at diskRead
    rw [reads.directoryDisk] at directoryRead
    rw [reads.entriesOnDisk] at onDiskRead
    rw [reads.entries] at entriesRead
    rw [reads.directorySize] at sizeRead
    rw [reads.directoryOffset] at offsetRead
    subst diskRead directoryRead onDiskRead entriesRead sizeRead offsetRead
    obtain ⟨records, names, count, stand, -, named, few, rfl⟩ :=
      (inspectEntries_eq_ok bound (Nat.zero_le _) (Nat.le_add_right _ _)).mp inspected
    simp only [Inspected.add, Nat.zero_add, List.nil_append, Bool.false_or] at whole tex few done
    exact ⟨offset, finish, records, names, ⟨ends, oneDisk, plain, before, count, stand, by omega, named, few, tex⟩,
      count ▸ (Except.ok.inj done).symm⟩
  · rintro ⟨offset, finish, records, names, accepts, rfl⟩
    exact inspectZipCandidates_accepts accepts

end Inspection

section Stored

variable {files : List StoredFile} {file : StoredFile} {bytes chunks central : Octets} {offset : Nat}
  {toLowerCase : Text → Text}

/-- The part of a stored file before the central directory. -/
def storedLocal (file : StoredFile) : Octets := (storedHeader file.entryName file.bytes).octets ++ file.bytes

/-- The central records of stored files, the first of which is at the offset. -/
def storedRecords : List StoredFile → Nat → List CentralRecord
  | [], _ => []
  | file :: rest, offset =>
    storedRecord file.entryName file.bytes offset :: storedRecords rest (offset + (storedLocal file).length)

/-- A file that is stored. -/
def Storable (file : StoredFile) : Prop :=
  file.entryName.length ≠ 0 ∧ file.entryName.length ≤ 65535 ∧ file.bytes.length ≤ 0xffffffff

instance : DecidablePred Storable := fun file =>
  inferInstanceAs (Decidable (file.entryName.length ≠ 0 ∧ file.entryName.length ≤ 65535 ∧ file.bytes.length ≤ 0xffffffff))

/-- The name that is read of a stored file. -/
def StoredFile.readName (file : StoredFile) : Text :=
  if (file.name.map slashed).head? = some (Char.ofNat 0xFEFF) then (file.name.map slashed).tail else file.name.map slashed

theorem storeFiles_eq_ok {out : Octets × Octets × Nat} :
    storeFiles files chunks central offset = .ok out ↔
      (∀ file ∈ files, Storable file) ∧
        out = (chunks ++ files.flatMap storedLocal, central ++ (storedRecords files offset).flatMap CentralRecord.octets,
          offset + (files.flatMap storedLocal).length) := by
  induction files generalizing chunks central offset with
  | nil =>
    simp only [storeFiles, storedRecords, List.flatMap_nil, List.append_nil, List.length_nil, Nat.add_zero]
    constructor
    · rintro ⟨⟩
      exact ⟨fun _ never => (by cases never), rfl⟩
    · rintro ⟨-, rfl⟩
      rfl
  | cons file rest ih =>
    rw [storeFiles, demand_bind_eq_ok, ih, List.forall_mem_cons]
    refine Iff.trans (and_congr_right fun _ => and_congr_right fun _ => ?_) and_assoc.symm
    have size : (storedLocal file).length =
        (storedHeader file.entryName file.bytes).octets.length + file.bytes.length := List.length_append
    rw [storedRecords, List.flatMap_cons, List.flatMap_cons, List.length_append, size, storedLocal]
    simp only [List.append_assoc, Nat.add_assoc]

theorem zipStoredFiles_eq_ok :
    zipStoredFiles files = .ok bytes ↔
      (files.length ≠ 0 ∧ files.length ≤ 100) ∧ (∀ file ∈ files, Storable file) ∧
        bytes = files.flatMap storedLocal ++ (storedRecords files 0).flatMap CentralRecord.octets ++
          (storedEnd files.length ((storedRecords files 0).flatMap CentralRecord.octets).length
            (files.flatMap storedLocal).length).octets := by
  unfold zipStoredFiles
  rw [demand_bind_eq_ok, bind_eq_ok]
  refine and_congr_right fun _ => ?_
  constructor
  · rintro ⟨out, stored, done⟩
    obtain ⟨each, rfl⟩ := storeFiles_eq_ok.mp stored
    have whole := Except.ok.inj done
    rw [List.nil_append, List.nil_append, Nat.zero_add] at whole
    exact ⟨each, whole.symm⟩
  · rintro ⟨each, rfl⟩
    refine ⟨_, storeFiles_eq_ok.mpr ⟨each, rfl⟩, ?_⟩
    rw [List.nil_append, List.nil_append, Nat.zero_add]
    rfl

theorem crc32_lt (content : Octets) : crc32 content < 256 ^ 4 := UInt32.toNat_lt _

theorem length_storedLocal (file : StoredFile) :
    (storedLocal file).length = 30 + file.entryName.length + file.bytes.length := by
  rw [storedLocal, List.length_append, LocalHeader.length_octets]
  rfl

theorem storedRecord_fit (storable : Storable file) (low : offset < 2 ^ 32) :
    FieldsFit (storedRecord file.entryName file.bytes offset).fields := by
  obtain ⟨-, name, size⟩ := storable
  have crc := crc32_lt file.bytes
  simp only [FieldsFit, CentralRecord.fields, storedRecord, List.forall_mem_cons, List.length_nil]
  refine ⟨?_, ?_, ?_, ?_, ?_, ?_, ?_, crc, ?_, ?_, ?_, ?_, ?_, ?_, ?_, ?_, ?_, fun _ never => by cases never⟩ <;> omega

theorem storedHeader_fit (storable : Storable file) : FieldsFit (storedHeader file.entryName file.bytes).fields := by
  obtain ⟨-, name, size⟩ := storable
  have crc := crc32_lt file.bytes
  simp only [FieldsFit, LocalHeader.fields, storedHeader, List.forall_mem_cons, List.length_nil]
  refine ⟨?_, ?_, ?_, ?_, ?_, ?_, crc, ?_, ?_, ?_, ?_, fun _ never => by cases never⟩ <;> omega

theorem decodeFatal_utf8Octets (text : Text) :
    decodeFatal (utf8Octets text) = some (if text.head? = some (Char.ofNat 0xFEFF) then text.tail else text) := by
  have same : utf8Text (utf8Octets text) = text := utf8Text_encode text
  rw [decodeFatal, same]
  exact if_pos rfl

theorem storedRecord_readable (file : StoredFile) (offset : Nat) :
    Readable (storedRecord file.entryName file.bytes offset) file.readName :=
  ⟨show (0x0800 : Nat) &&& 0x1 = 0 by decide, .inl (show (0x0800 : Nat) &&& 0x800 ≠ 0 by decide), decodeFatal_utf8Octets _⟩

/-- What the directory tells of a record. -/
def CentralRecord.entry (r : CentralRecord) (fileName : Text) : ZipEntry where
  fileName := fileName
  generalPurposeBitFlag := r.flags
  compressionMethod := r.method
  compressedSize := r.compressedSize
  uncompressedSize := r.expandedSize
  externalFileAttributes := r.external

/-- The local header of a file passes the check of the worker, which reads it where the record says, and the content
follows it. -/
structure ServedBy (bytes : Octets) (file : StoredFile) (r : CentralRecord) : Prop where
  passes : file.entryName.length ≤ 4096 → ∀ s, (assertLocalHeader (r.entry (file.name.map slashed))).replay?
    [.done ⟨slice bytes r.localOffset bytes.length, [], []⟩, .done ⟨slice bytes (r.localOffset + 30) bytes.length, [], []⟩] s =
      some (.ok (), s)
  content : slice bytes (r.localOffset + 30 + r.name.length) (r.localOffset + 30 + r.name.length + r.compressedSize) = file.bytes

theorem replay?_readCall {α β : Type} (site : ExtractSite) (error : ZipError) (f : ExtractAnswer → β) (next : β → Extraction α)
    (answer : ExtractAnswer) (replies : List (Reply ExtractAnswer)) (s : ExtractState) :
    (readCall site error f >>= next).replay? (.done answer :: replies) s = (next (f answer)).replay? replies s := rfl

theorem replay?_require {α : Type} {condition : Prop} [Decidable condition] (error : ZipError) (holds : condition)
    (next : Unit → Extraction α) (replies : List (Reply ExtractAnswer)) (s : ExtractState) :
    ((Process.require condition error : Extraction Unit) >>= next).replay? replies s = (next ()).replay? replies s := by
  rw [Process.require, if_pos holds]
  rfl

theorem take_slice {start count : Nat} (_ : start + count ≤ bytes.length) :
    (slice bytes start bytes.length).take count = slice bytes start (start + count) := by
  rw [slice, slice, List.take_take]
  congr 1
  omega

theorem readField_slice {start at' width count : Nat} (within : at' + width ≤ count) :
    readField (slice bytes start (start + count)) at' width = readField bytes (start + at') width := by
  unfold readField
  congr 1
  simp only [slice, List.drop_take, List.drop_drop, List.take_take]
  congr 1
  omega

/-- A local header that agrees with the entry passes the check. -/
theorem replay?_assertLocalHeader {entry : ZipEntry} {h : LocalHeader} (stands : StandsAt bytes offset h.octets)
    (fit : FieldsFit h.fields) (agrees : h.flags = entry.generalPurposeBitFlag ∧ h.method = entry.compressionMethod)
    (short : h.name.length ≤ 4096)
    (plain : h.flags &&& 0x800 ≠ 0 ∨ h.name.all (fun value => decide (value.toNat ≤ 0x7f)) = true)
    (named : h.name = utf8Octets entry.fileName)
    (sizes : h.flags &&& 0x8 ≠ 0 ∨ h.compressedSize = entry.compressedSize ∧ h.expandedSize = entry.uncompressedSize)
    (s : ExtractState) :
    (assertLocalHeader entry).replay? [.done ⟨slice bytes offset bytes.length, [], []⟩,
      .done ⟨slice bytes (offset + 30) bytes.length, [], []⟩] s = some (.ok (), s) := by
  have size := h.length_octets
  have inside := stands.bound (List.ne_nil_of_length_pos (by omega))
  obtain ⟨fixed, rest⟩ := standsAt_append.mp stands
  have read := fieldsAt_stands fixed fit
  simp only [LocalHeader.fields, FieldsAt, Nat.add_assoc, Nat.reduceAdd] at read
  obtain ⟨signed, -, flags, method, -, -, -, compressed, expanded, nameLength, extraLength, -⟩ := read
  rw [length_fieldOctets, LocalHeader.width_fields] at rest
  have name := (standsAt_append.mp rest).1.slice_eq
  have first : (slice bytes offset bytes.length).take 30 = slice bytes offset (offset + 30) := take_slice (by omega)
  have second : (slice bytes (offset + 30) bytes.length).take h.name.length = h.name := (take_slice (by omega)).trans name
  have whole : (slice bytes offset (offset + 30)).length = 30 := by
    rw [length_slice _ (by omega)]
    omega
  have field : ∀ at' width, at' + width ≤ 30 →
      littleEndian (slice (slice bytes offset (offset + 30)) at' (at' + width)) = readField bytes (offset + at') width :=
    fun at' width within => readField_slice within
  have signed' : readUInt32LE (slice bytes offset (offset + 30)) 0 = 0x04034b50 := (field 0 4 (by omega)).trans signed
  have flags' : readUInt16LE (slice bytes offset (offset + 30)) 6 = h.flags := (field 6 2 (by omega)).trans flags
  have method' : readUInt16LE (slice bytes offset (offset + 30)) 8 = h.method := (field 8 2 (by omega)).trans method
  have nameLength' : readUInt16LE (slice bytes offset (offset + 30)) 26 = h.name.length := (field 26 2 (by omega)).trans nameLength
  have extraLength' : readUInt16LE (slice bytes offset (offset + 30)) 28 = h.extra.length :=
    (field 28 2 (by omega)).trans extraLength
  have compressed' : readUInt32LE (slice bytes offset (offset + 30)) 18 = h.compressedSize :=
    (field 18 4 (by omega)).trans compressed
  have expanded' : readUInt32LE (slice bytes offset (offset + 30)) 22 = h.expandedSize := (field 22 4 (by omega)).trans expanded
  have extra : h.extra.length ≤ 65535 := by
    have bound := readField_lt bytes (offset + 28) 2
    omega
  unfold assertLocalHeader
  refine (replay?_readCall _ _ _ _ _ _ _).trans ?_
  simp only [first, flags', method', nameLength', extraLength', compressed', expanded']
  refine (replay?_require _ ⟨whole, signed'⟩ _ _ _).trans ?_
  refine (replay?_require _ ⟨agrees.1, agrees.2, short, extra⟩ _ _ _).trans ?_
  refine (replay?_readCall _ _ _ _ _ _ _).trans ?_
  simp only [second]
  refine (replay?_require _ ⟨trivial, plain, named⟩ _ _ _).trans ?_
  rw [Process.require, if_pos sizes]
  rfl

theorem storedFile_servedBy (storable : Storable file) (stands : StandsAt bytes offset (storedLocal file)) :
    ServedBy bytes file (storedRecord file.entryName file.bytes offset) := by
  obtain ⟨header, data⟩ := standsAt_append.mp stands
  constructor
  · intro short
    exact replay?_assertLocalHeader header (storedHeader_fit storable) ⟨rfl, rfl⟩ short
      (.inl (show (0x0800 : Nat) &&& 0x800 ≠ 0 by decide)) rfl (.inr ⟨rfl, rfl⟩)
  · have content := data.slice_eq
    have extra : (storedHeader file.entryName file.bytes).extra.length = 0 := rfl
    rw [LocalHeader.length_octets, extra, Nat.add_zero, ← Nat.add_assoc] at content
    exact content

/-- Each record is that of the file at its place. -/
theorem storedRecords_served (stands : StandsAt bytes offset (files.flatMap storedLocal))
    (storable : ∀ file ∈ files, Storable file) (short : bytes.length < 2 ^ 32) :
    List.Forall₂ (ServedBy bytes) files (storedRecords files offset) ∧
      ∀ r ∈ storedRecords files offset, FieldsFit r.fields := by
  induction files generalizing offset with
  | nil => exact ⟨.nil, fun _ never => by cases never⟩
  | cons file rest ih =>
    obtain ⟨first, later⟩ := standsAt_append.mp (List.flatMap_cons ▸ stands)
    have here := storable file List.mem_cons_self
    have bound := first.bound (List.ne_nil_of_length_pos (by rw [length_storedLocal]; omega))
    obtain ⟨served, fit⟩ := ih later fun other member => storable other (List.mem_cons_of_mem _ member)
    exact ⟨.cons (storedFile_servedBy here first) served,
      List.forall_mem_cons.mpr ⟨storedRecord_fit here (by omega), fit⟩⟩

theorem storedRecords_readable (files : List StoredFile) (offset : Nat) :
    List.Forall₂ Readable (storedRecords files offset) (files.map StoredFile.readName) := by
  induction files generalizing offset with
  | nil => exact .nil
  | cons file rest ih => exact .cons (storedRecord_readable file offset) (ih _)

theorem length_storedRecords (files : List StoredFile) (offset : Nat) : (storedRecords files offset).length = files.length := by
  induction files generalizing offset with
  | nil => rfl
  | cons file rest ih => rw [storedRecords, List.length_cons, ih, List.length_cons]

/-- An archive of stored files has all that is asked of an archive. -/
theorem accepts_zipStoredFiles (zipped : zipStoredFiles files = .ok bytes) (short : bytes.length < 2 ^ 32)
    (tex : texNames toLowerCase (files.map StoredFile.readName) ≠ []) :
    Accepts bytes toLowerCase (bytes.length - 22)
        (storedEnd files.length ((storedRecords files 0).flatMap CentralRecord.octets).length (files.flatMap storedLocal).length)
        (storedRecords files 0) (files.map StoredFile.readName) ∧
      List.Forall₂ (ServedBy bytes) files (storedRecords files 0) := by
  obtain ⟨⟨some, few⟩, storable, whole⟩ := zipStoredFiles_eq_ok.mp zipped
  have stands := (congrArg (StandsAt bytes 0) whole).mp (standsAt_self bytes)
  have total := congrArg List.length whole
  obtain ⟨body, last⟩ := standsAt_append.mp stands
  obtain ⟨locals, directory⟩ := standsAt_append.mp body
  obtain ⟨served, fit⟩ := storedRecords_served locals storable short
  rw [Nat.zero_add, List.length_append] at last
  rw [Nat.zero_add] at directory
  rw [List.length_append, List.length_append, EndRecord.length_octets] at total
  generalize (files.flatMap storedLocal).length = start at *
  generalize sized : ((storedRecords files 0).flatMap CentralRecord.octets).length = size at *
  have comment : (storedEnd files.length size start).comment.length = 0 := rfl
  have place : bytes.length - 22 = start + size := by omega
  have bounds : FieldsFit (storedEnd files.length size start).fields := by
    simp only [FieldsFit, EndRecord.fields, storedEnd, List.forall_mem_cons, List.length_nil]
    refine ⟨?_, ?_, ?_, ?_, ?_, ?_, ?_, ?_, fun _ never => by cases never⟩ <;> omega
  have fileCount : (fileNames (files.map StoredFile.readName)).length ≤ files.length :=
    (List.length_filter_le _ _).trans_eq (List.length_map _)
  refine ⟨⟨⟨place ▸ last, bounds, ?_, fun later beyond closes => ?_⟩, ⟨rfl, rfl, rfl⟩, ⟨?_, ?_, ?_⟩, ?_, ?_, ⟨directory, fit⟩, sized,
    storedRecords_readable files 0, by omega, tex⟩, served⟩
  · rw [EndRecord.length_octets, comment]
    omega
  · have ends := closes.2
    omega
  · show files.length ≠ 0xffff
    omega
  · show size ≠ 0xffffffff
    omega
  · show start ≠ 0xffffffff
    omega
  · show start + size ≤ bytes.length - 22
    omega
  · exact length_storedRecords files 0

/-- What the browser wrote it accepts as these files, and each of them passes the check of local headers of the worker. -/
theorem zipStoredFiles_inspected (zipped : zipStoredFiles files = .ok bytes) (short : bytes.length < 2 ^ 32)
    (tex : texNames toLowerCase (files.map StoredFile.readName) ≠ []) :
    inspectZipCandidates bytes toLowerCase = .ok ⟨files.length, (fileNames (files.map StoredFile.readName)).length,
        texNames toLowerCase (files.map StoredFile.readName),
        decide ("main.tex".toList ∈ fileNames (files.map StoredFile.readName))⟩ ∧
      ("main.tex".toList ∈ fileNames (files.map StoredFile.readName) →
        inspectZip bytes toLowerCase = .ok ⟨files.length, (fileNames (files.map StoredFile.readName)).length⟩) ∧
      ∃ offset finish records, Accepts bytes toLowerCase offset finish records (files.map StoredFile.readName) ∧
        List.Forall₂ (ServedBy bytes) files records := by
  obtain ⟨accepts, served⟩ := accepts_zipStoredFiles zipped short tex
  have inspected := inspectZipCandidates_accepts accepts
  rw [length_storedRecords] at inspected
  refine ⟨inspected, fun main => ?_, _, _, _, accepts, served⟩
  rw [inspectZip, inspected, ok_bind, demand_of (decide_eq_true main)]
  rfl

/-- Two files, the name of one of which has a backslash. -/
def exampleFiles : List StoredFile := [⟨"main.tex".toList, [72, 105]⟩, ⟨"a\\b.txt".toList, []⟩]

/-- Their archive. -/
def exampleArchive : Octets :=
  exampleFiles.flatMap storedLocal ++ (storedRecords exampleFiles 0).flatMap CentralRecord.octets ++
    (storedEnd exampleFiles.length ((storedRecords exampleFiles 0).flatMap CentralRecord.octets).length
      (exampleFiles.flatMap storedLocal).length).octets

theorem zipStoredFiles_inspected_example : inspectZipCandidates exampleArchive (List.map Char.toLower) =
    .ok ⟨2, 2, ["main.tex".toList], true⟩ := by
  have zipped : zipStoredFiles exampleFiles = .ok exampleArchive :=
    zipStoredFiles_eq_ok.mpr ⟨by decide, by decide +kernel, rfl⟩
  have names : exampleFiles.map StoredFile.readName = ["main.tex".toList, "a/b.txt".toList] := by decide +kernel
  have short : exampleArchive.length < 2 ^ 32 := by decide +kernel
  have tex : texNames (List.map Char.toLower) (exampleFiles.map StoredFile.readName) ≠ [] := by decide +kernel
  have inspected := (zipStoredFiles_inspected zipped short tex).1
  rw [names] at inspected
  exact inspected.trans (by decide +kernel)

end Stored

end LatexRenderer
