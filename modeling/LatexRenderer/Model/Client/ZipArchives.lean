import LatexRenderer.Machine.Layout
import LatexRenderer.Machine.Paths
import LatexRenderer.Machine.Process
import LatexRenderer.Machine.Utf8
import LatexRenderer.Model.Sources.ZipExtraction

/-! # ZIP archives of the client and of the browser

The browser writes archives of stored files and inspects the archives that it uploads; the setup of the client unpacks the
archive of a release. Both readers look for the end record from the end of the archive and follow the central directory.
Unpacking is a process over the disk: a step that fails may have done a part of its work.
-/

namespace LatexRenderer

open Machine
open Machine.Process

section Format

/-- A record of the central directory. -/
structure CentralRecord where
  versionMade : Nat
  versionNeeded : Nat
  flags : Nat
  method : Nat
  time : Nat
  date : Nat
  crc : Nat
  compressedSize : Nat
  expandedSize : Nat
  disk : Nat
  internal : Nat
  external : Nat
  localOffset : Nat
  name : Octets
  extra : Octets
  comment : Octets
deriving DecidableEq, Repr

/-- The fixed fields of a central record. -/
def CentralRecord.fields (r : CentralRecord) : List (Nat × Nat) :=
  [(4, 0x02014b50), (2, r.versionMade), (2, r.versionNeeded), (2, r.flags), (2, r.method), (2, r.time), (2, r.date), (4, r.crc),
    (4, r.compressedSize), (4, r.expandedSize), (2, r.name.length), (2, r.extra.length), (2, r.comment.length), (2, r.disk),
    (2, r.internal), (4, r.external), (4, r.localOffset)]

/-- The octets of a central record. -/
def CentralRecord.octets (r : CentralRecord) : Octets := fieldOctets r.fields ++ (r.name ++ r.extra ++ r.comment)

/-- A local header. -/
structure LocalHeader where
  version : Nat
  flags : Nat
  method : Nat
  time : Nat
  date : Nat
  crc : Nat
  compressedSize : Nat
  expandedSize : Nat
  name : Octets
  extra : Octets
deriving DecidableEq, Repr

/-- The fixed fields of a local header. -/
def LocalHeader.fields (h : LocalHeader) : List (Nat × Nat) :=
  [(4, 0x04034b50), (2, h.version), (2, h.flags), (2, h.method), (2, h.time), (2, h.date), (4, h.crc), (4, h.compressedSize),
    (4, h.expandedSize), (2, h.name.length), (2, h.extra.length)]

/-- The octets of a local header. -/
def LocalHeader.octets (h : LocalHeader) : Octets := fieldOctets h.fields ++ (h.name ++ h.extra)

/-- The record at the end of an archive. -/
structure EndRecord where
  disk : Nat
  directoryDisk : Nat
  entriesOnDisk : Nat
  entries : Nat
  directorySize : Nat
  directoryOffset : Nat
  comment : Octets
deriving DecidableEq, Repr

/-- The fixed fields of an end record. -/
def EndRecord.fields (r : EndRecord) : List (Nat × Nat) :=
  [(4, 0x06054b50), (2, r.disk), (2, r.directoryDisk), (2, r.entriesOnDisk), (2, r.entries), (4, r.directorySize),
    (4, r.directoryOffset), (2, r.comment.length)]

/-- The octets of an end record. -/
def EndRecord.octets (r : EndRecord) : Octets := fieldOctets r.fields ++ r.comment

/-- One bit of `crc32`. -/
def crcBit (crc : UInt32) : UInt32 := (crc >>> 1) ^^^ if crc &&& 1 ≠ 0 then 0xedb88320 else 0

def crc32 (bytes : Octets) : Nat :=
  (bytes.foldl (fun crc byte => crcBit^[8] (crc ^^^ byte.toUInt32)) 0xffffffff ^^^ 0xffffffff).toNat

/-- The loop that looks for an end record: from an offset down to the lowest one. -/
def searchEnd {ε : Type} (found : Nat → Except ε Bool) (minimum : Nat) : Nat → Except ε (Option Nat)
  | 0 => do pure (if ← found 0 then some 0 else none)
  | offset + 1 => do
    if ← found (offset + 1) then pure (some (offset + 1))
    else if offset + 1 ≤ minimum then pure none
    else searchEnd found minimum offset

end Format

section Writer

/-- A file to store. -/
structure StoredFile where
  name : Text
  bytes : Octets
deriving DecidableEq, Repr

/-- Why files are not stored. -/
inductive StoreError where
  | count
  | file
deriving DecidableEq, Repr

/-- The text of the error. -/
def StoreError.message : StoreError → String
  | .count => "ZIPへ格納できるファイル数を超えています。"
  | .file => "ZIPへ格納できないファイルがあります。"

/-- The name of a file in the archive. -/
def StoredFile.entryName (file : StoredFile) : Octets := utf8Octets (file.name.map slashed)

/-- The local header of a stored file; what is not set is zero. -/
def storedHeader (name bytes : Octets) : LocalHeader where
  version := 20
  flags := 0x0800
  method := 0
  time := 0
  date := 0
  crc := crc32 bytes
  compressedSize := bytes.length
  expandedSize := bytes.length
  name := name
  extra := []

/-- The central record of a stored file. -/
def storedRecord (name bytes : Octets) (offset : Nat) : CentralRecord where
  versionMade := 20
  versionNeeded := 20
  flags := 0x0800
  method := 0
  time := 0
  date := 0
  crc := crc32 bytes
  compressedSize := bytes.length
  expandedSize := bytes.length
  disk := 0
  internal := 0
  external := 0
  localOffset := offset
  name := name
  extra := []
  comment := []

/-- The end record of an archive of so many files. -/
def storedEnd (count centralSize offset : Nat) : EndRecord where
  disk := 0
  directoryDisk := 0
  entriesOnDisk := count
  entries := count
  directorySize := centralSize
  directoryOffset := offset
  comment := []

/-- The loop over the files: the local parts, the central records and the offset. -/
def storeFiles : List StoredFile → Octets → Octets → Nat → Except StoreError (Octets × Octets × Nat)
  | [], chunks, central, offset => .ok (chunks, central, offset)
  | file :: rest, chunks, central, offset => do
    let name := file.entryName
    demand (name.length ≠ 0 ∧ name.length ≤ 65535 ∧ file.bytes.length ≤ 0xffffffff) .file
    let header := (storedHeader name file.bytes).octets
    storeFiles rest (chunks ++ header ++ file.bytes) (central ++ (storedRecord name file.bytes offset).octets)
      (offset + (header.length + file.bytes.length))

def zipStoredFiles (files : List StoredFile) : Except StoreError Octets := do
  demand (files.length ≠ 0 ∧ files.length ≤ 100) .count
  let (chunks, central, offset) ← storeFiles files [] [] 0
  pure (chunks ++ central ++ (storedEnd files.length central.length offset).octets)

end Writer

section Inspection

/-- Why an archive is not uploaded. -/
inductive InspectionError where
  | cut
  | noArchive
  | directoryUnknown
  | multiDisk
  | zip64
  | directory
  | entry
  | encrypted
  | entryName
  | nameNotUtf8
  | nameUndecodable
  | tooManyFiles
  | directoryLength
  | texMissing
  | mainTexMissing
deriving DecidableEq, Repr

/-- The text of the error. -/
def InspectionError.message : InspectionError → String
  | .cut => "ZIPの構造が途中で切れています。"
  | .noArchive => "有効なZIPファイルではありません。"
  | .directoryUnknown => "ZIPの中央ディレクトリを確認できません。"
  | .multiDisk => "分割ZIPには対応していません。"
  | .zip64 => "ZIP64形式には対応していません。"
  | .directory => "ZIPの中央ディレクトリが不正です。"
  | .entry => "ZIPエントリを読み取れません。"
  | .encrypted => "暗号化ZIPは利用できません。"
  | .entryName => "ZIPエントリ名が途中で切れています。"
  | .nameNotUtf8 => "UTF-8ではないファイル名を含むZIPは利用できません。"
  | .nameUndecodable => "ZIPエントリ名をUTF-8として読み取れません。"
  | .tooManyFiles => "ZIP内のファイル数が500件を超えています。"
  | .directoryLength => "ZIPの中央ディレクトリ長が一致しません。"
  | .texMissing => "ZIPにTeXファイルがありません。"
  | .mainTexMissing => "ZIPのルートに main.tex がありません。"

structure CandidateInspection where
  entries : Nat
  files : Nat
  texFiles : List Text
  hasMainTex : Bool
deriving DecidableEq, Repr

/-- `ZipInspection`, whose `mainTex` is always true. -/
structure ZipInspection where
  entries : Nat
  files : Nat
deriving DecidableEq, Repr

/-- `TextDecoder` with `fatal`, which drops a byte order mark. -/
def decodeFatal (octets : Octets) : Option Text :=
  if utf8Encode (utf8Text octets) = octets then
    some (if (utf8Text octets).head? = some (Char.ofNat 0xFEFF) then (utf8Text octets).tail else utf8Text octets)
  else none

variable (bytes : Octets) (toLowerCase : Text → Text)

def uint16 (offset : Nat) : Except InspectionError Nat := obtain? (field? bytes offset 2) .cut

def uint32 (offset : Nat) : Except InspectionError Nat := obtain? (field? bytes offset 4) .cut

def signature (offset expected : Nat) : Bool := field? bytes offset 4 == some expected

/-- The variables of the loop over the entries. -/
structure Inspected where
  cursor : Nat
  files : Nat
  mainTex : Bool
  texFiles : List Text
deriving DecidableEq, Repr

/-- What a name adds. -/
def Inspected.record (name : Text) (x : Inspected) : Except InspectionError Inspected :=
  if name.getLast? = some '/' then .ok x
  else do
    demand (x.files + 1 ≤ 500) .tooManyFiles
    pure { x with
      files := x.files + 1
      mainTex := x.mainTex || decide (name = "main.tex".toList)
      texFiles := if ".tex".toList <:+ toLowerCase name then x.texFiles ++ [name] else x.texFiles }

/-- One turn of the loop. -/
def inspectEntry (directoryEnd : Nat) (x : Inspected) : Except InspectionError Inspected := do
  demand (signature bytes x.cursor 0x02014b50 = true ∧ x.cursor + 46 ≤ directoryEnd) .entry
  let flags ← uint16 bytes (x.cursor + 8)
  demand (flags &&& 0x1 = 0) .encrypted
  let nameLength ← uint16 bytes (x.cursor + 28)
  let extraLength ← uint16 bytes (x.cursor + 30)
  let commentLength ← uint16 bytes (x.cursor + 32)
  let next := x.cursor + 46 + nameLength + extraLength + commentLength
  demand (next ≤ directoryEnd) .entryName
  let nameBytes := slice bytes (x.cursor + 46) (x.cursor + 46 + nameLength)
  demand (flags &&& 0x800 ≠ 0 ∨ nameBytes.all (fun value => decide (value.toNat ≤ 0x7f)) = true) .nameNotUtf8
  let name ← obtain? (decodeFatal nameBytes) .nameUndecodable
  let x ← x.record toLowerCase name
  pure { x with cursor := next }

/-- The loop over the entries. -/
def inspectEntries (directoryEnd : Nat) : Nat → Inspected → Except InspectionError Inspected
  | 0, x => .ok x
  | entries + 1, x => do
    let x ← inspectEntry bytes toLowerCase directoryEnd x
    inspectEntries directoryEnd entries x

def inspectZipCandidates : Except InspectionError CandidateInspection := do
  demand (22 ≤ bytes.length) .noArchive
  let found ← searchEnd (fun offset => do
    if signature bytes offset 0x06054b50 then
      let commentLength ← uint16 bytes (offset + 20)
      pure (decide (offset + 22 + commentLength = bytes.length))
    else pure false) (bytes.length - 65557) (bytes.length - 22)
  let eocd ← obtain? found .directoryUnknown
  let disk ← uint16 bytes (eocd + 4)
  let directoryDisk ← uint16 bytes (eocd + 6)
  let entriesOnDisk ← uint16 bytes (eocd + 8)
  let entries ← uint16 bytes (eocd + 10)
  let directorySize ← uint32 bytes (eocd + 12)
  let directoryOffset ← uint32 bytes (eocd + 16)
  demand (disk = 0 ∧ directoryDisk = 0 ∧ entriesOnDisk = entries) .multiDisk
  demand (entries ≠ 0xffff ∧ directorySize ≠ 0xffffffff ∧ directoryOffset ≠ 0xffffffff) .zip64
  let directoryEnd := directoryOffset + directorySize
  demand (directoryEnd ≤ eocd ∧ directoryEnd ≤ bytes.length) .directory
  let x ← inspectEntries bytes toLowerCase directoryEnd entries
    { cursor := directoryOffset, files := 0, mainTex := false, texFiles := [] }
  demand (x.cursor = directoryEnd) .directoryLength
  demand (x.texFiles ≠ []) .texMissing
  pure { entries, files := x.files, texFiles := x.texFiles, hasMainTex := x.mainTex }

def inspectZip : Except InspectionError ZipInspection := do
  let inspected ← inspectZipCandidates bytes toLowerCase
  demand (inspected.hasMainTex = true) .mainTexMissing
  pure { entries := inspected.entries, files := inspected.files }

end Inspection

section Client

/-- Why the archive of the client is not unpacked. -/
inductive ClientArchiveError where
  | endRecord
  | multiDisk
  | tooManyEntries
  | directory
  | truncatedEntry
  | unsafeEntry (name : Text)
  | duplicateEntry (name : Text)
  | encrypted
  | method (method : Nat)
  | localHeader
  | headerMismatch
  | truncatedData
  | inflate
  | expandedSize
  | crc (name : Text)
  | directorySize
  | outOfRange
  | io
deriving DecidableEq, Repr

/-- The text of the error; those of the reader of numbers, of `inflateRawSync` and of the file system are their own. -/
def ClientArchiveError.message : ClientArchiveError → Option String
  | .endRecord => some "Client archive end record was not found"
  | .multiDisk => some "Multi-disk or malformed ZIP archives are not supported"
  | .tooManyEntries => some "Client archive has too many entries"
  | .directory => some "Client archive central directory is malformed"
  | .truncatedEntry => some "Client archive entry is truncated"
  | .unsafeEntry name => some ("Unsafe client archive entry: " ++ String.ofList name)
  | .duplicateEntry name => some ("Duplicate client archive entry: " ++ String.ofList name)
  | .encrypted => some "Encrypted ZIP entries are not supported"
  | .method number => some ("Unsupported ZIP compression method: " ++ toString number)
  | .localHeader => some "Client archive local header is malformed"
  | .headerMismatch => some "Client archive local and central headers do not match"
  | .truncatedData => some "Client archive data is truncated"
  | .expandedSize => some "Client archive expanded size is invalid"
  | .crc name => some ("Client archive CRC check failed: " ++ String.ofList name)
  | .directorySize => some "Client archive central directory size is invalid"
  | .inflate | .outOfRange | .io => none

def maximumExpandedBytes : Nat := 100 * 1024 * 1024

def payloadName : Text := "latex-renderer-client".toList

/-- A part of a name that is refused. -/
def unsafePart (part : Text) : Bool := part == [] || part == ['.'] || part == ['.', '.']

def validateEntryName (name : Text) (seen : List Text) : Except ClientArchiveError (List Text) := do
  demand (payloadName ++ ['/'] <+: name ∧ '\\' ∉ name ∧ Char.ofNat 0 ∉ name ∧ (splitText '/' name).any unsafePart = false)
    (.unsafeEntry name)
  demand (name ∉ seen) (.duplicateEntry name)
  pure (seen ++ [name])

variable (bytes : Octets)

/-- `readUInt16LE` and `readUInt32LE` on the archive. -/
def readArchive (offset width : Nat) : Except ClientArchiveError Nat := obtain? (field? bytes offset width) .outOfRange

def findEndOfCentralDirectory : Except ClientArchiveError Nat := do
  let found ← if bytes.length < 22 then pure none
    else searchEnd (fun offset => do
      let signature ← readArchive bytes offset 4
      if signature = 0x06054b50 then
        let commentLength ← readArchive bytes (offset + 20) 2
        pure (decide (offset + 22 + commentLength = bytes.length))
      else pure false) (bytes.length - 65557) (bytes.length - 22)
  obtain? found .endRecord

/-- What the end record says: the entries, the size of the central directory and its offset. -/
def clientDirectory : Except ClientArchiveError (Nat × Nat × Nat) := do
  let eocd ← findEndOfCentralDirectory bytes
  let entries ← readArchive bytes (eocd + 10) 2
  let centralSize ← readArchive bytes (eocd + 12) 4
  let centralOffset ← readArchive bytes (eocd + 16) 4
  let disk ← readArchive bytes (eocd + 4) 2
  let directoryDisk ← readArchive bytes (eocd + 6) 2
  let entriesOnDisk ← readArchive bytes (eocd + 8) 2
  demand (disk = 0 ∧ directoryDisk = 0 ∧ entriesOnDisk = entries ∧ centralOffset + centralSize ≤ eocd) .multiDisk
  demand (entries ≤ 200) .tooManyEntries
  pure (entries, centralSize, centralOffset)

/-- What is read of a central record. -/
structure ClientHeader where
  flags : Nat
  method : Nat
  expectedCrc : Nat
  compressedSize : Nat
  expandedSize : Nat
  nameLength : Nat
  extraLength : Nat
  commentLength : Nat
  localOffset : Nat
deriving DecidableEq, Repr

/-- The reads of a central record. -/
def readClientHeader (cursor : Nat) : Except ClientArchiveError ClientHeader := do
  demand (cursor + 46 ≤ bytes.length) .directory
  let signature ← readArchive bytes cursor 4
  demand (signature = 0x02014b50) .directory
  let flags ← readArchive bytes (cursor + 8) 2
  let method ← readArchive bytes (cursor + 10) 2
  let expectedCrc ← readArchive bytes (cursor + 16) 4
  let compressedSize ← readArchive bytes (cursor + 20) 4
  let expandedSize ← readArchive bytes (cursor + 24) 4
  let nameLength ← readArchive bytes (cursor + 28) 2
  let extraLength ← readArchive bytes (cursor + 30) 2
  let commentLength ← readArchive bytes (cursor + 32) 2
  let localOffset ← readArchive bytes (cursor + 42) 4
  pure { flags, method, expectedCrc, compressedSize, expandedSize, nameLength, extraLength, commentLength, localOffset }

/-- The checks of the local header; the offset of the data. -/
def clientDataOffset (header : ClientHeader) (name : Text) : Except ClientArchiveError Nat := do
  demand (header.localOffset + 30 ≤ bytes.length) .localHeader
  let signature ← readArchive bytes header.localOffset 4
  demand (signature = 0x04034b50) .localHeader
  let localNameLength ← readArchive bytes (header.localOffset + 26) 2
  let localExtraLength ← readArchive bytes (header.localOffset + 28) 2
  let localName := utf8Text (slice bytes (header.localOffset + 30) (header.localOffset + 30 + localNameLength))
  demand (localName = name) .headerMismatch
  let flags ← readArchive bytes (header.localOffset + 6) 2
  demand (flags = header.flags) .headerMismatch
  let method ← readArchive bytes (header.localOffset + 8) 2
  demand (method = header.method) .headerMismatch
  pure (header.localOffset + 30 + localNameLength + localExtraLength)

/-- The variables of the loop over the entries. -/
structure Unpacked where
  seen : List Text
  cursor : Nat
  expandedBytes : Nat
deriving DecidableEq, Repr

variable (inflateRawSync : Octets → Option Octets)

/-- The content of an entry that is a file. -/
def clientContent (header : ClientHeader) (name : Text) (expandedBytes : Nat) : Except ClientArchiveError Octets := do
  demand (header.flags &&& 1 = 0) .encrypted
  demand (header.method = 0 ∨ header.method = 8) (.method header.method)
  let dataOffset ← clientDataOffset bytes header name
  let dataEnd := dataOffset + header.compressedSize
  demand (dataEnd ≤ bytes.length) .truncatedData
  let compressed := slice bytes dataOffset dataEnd
  let content ← if header.method = 0 then pure compressed else obtain? (inflateRawSync compressed) .inflate
  demand (content.length = header.expandedSize ∧ expandedBytes + content.length ≤ maximumExpandedBytes) .expandedSize
  demand (crc32 content = header.expectedCrc) (.crc name)
  pure content

/-- What a turn of the loop reads: a file with its content, or nothing for a directory. -/
def readClientEntry (x : Unpacked) : Except ClientArchiveError (Option (Text × Octets) × Unpacked) := do
  let header ← readClientHeader bytes x.cursor
  let next := x.cursor + 46 + header.nameLength + header.extraLength + header.commentLength
  demand (next ≤ bytes.length) .truncatedEntry
  let name := utf8Text (slice bytes (x.cursor + 46) (x.cursor + 46 + header.nameLength))
  let seen ← validateEntryName name x.seen
  if name.getLast? = some '/' then pure (none, { x with seen, cursor := next })
  else
    let content ← clientContent bytes inflateRawSync header name x.expandedBytes
    pure (some (name, content), { seen, cursor := next, expandedBytes := x.expandedBytes + content.length })

/-- The calls of the file system. -/
inductive UnpackSite where
  | mkdir
  | openFile
  | write
deriving DecidableEq, Repr

/-- The disk. -/
structure UnpackDisk where
  directories : List (List String)
  files : List (List String × Octets)
deriving DecidableEq, Repr

namespace UnpackDisk

/-- A file is there. -/
def isFile (path : List String) (s : UnpackDisk) : Bool := (s.files.map Prod.fst).contains path

/-- Directories are made one after another, up to the first place that a file has. -/
def mkdir (paths : List (List String)) (s : UnpackDisk) : UnpackDisk :=
  { s with directories := s.directories ++ paths.takeWhile fun path => !s.isFile path }

/-- The file is made if its place is free and its directory there. -/
def create (path : List String) (s : UnpackDisk) : Option UnpackDisk :=
  if s.isFile path || s.directories.contains path || !s.directories.contains path.dropLast then none
  else some { s with files := s.files ++ [(path, [])] }

/-- What is written to a file. -/
def write (path : List String) (content : Octets) (s : UnpackDisk) : UnpackDisk :=
  { s with files := s.files.map fun file => if file.1 = path then (path, content) else file }

end UnpackDisk

/-- Unpacking; the environment tells how much of a call that fails was done. -/
abbrev Unpacking : Type → Type := Process UnpackSite UnpackDisk Nat ClientArchiveError

/-- `mkdir` with `recursive`. -/
def unpackMkdir (path : List String) : Unpacking Unit :=
  .perform .mkdir
    (fun reply s => match reply with
      | .done _ => s.mkdir path.inits
      | .lost made => s.mkdir (path.inits.take made)
      | .refused => s)
    fun reply s => match reply with
      | .done _ => require (path.inits.all (fun parent => !s.isFile parent) = true) .io
      | .lost _ => throw .io
      | .refused => throw .io

/-- `open` with the flag `wx`. -/
def unpackOpen (path : List String) : Unpacking Unit :=
  .perform .openFile
    (fun reply s => match reply with
      | .done _ => (s.create path).getD s
      | .lost _ => (s.create path).getD s
      | .refused => s)
    fun reply s => match reply with
      | .done _ => require ((s.create path).isSome = true) .io
      | .lost _ => throw .io
      | .refused => throw .io

/-- The writes of `writeFile`. -/
def unpackWrite (path : List String) (content : Octets) : Unpacking Unit :=
  .perform .write
    (fun reply s => match reply with
      | .done _ => s.write path content
      | .lost written => s.write path (content.take written)
      | .refused => s)
    fun reply _ => match reply with
      | .done _ => pure ()
      | .lost _ => throw .io
      | .refused => throw .io

/-- A file is written below the destination. -/
def unpackFile (destination : List String) (name : Text) (content : Octets) : Unpacking Unit := do
  let destinationPath := resolvePath destination (pathSegments name)
  unpackMkdir destinationPath.dropLast
  unpackOpen destinationPath
  unpackWrite destinationPath content

/-- The loop over the entries. -/
def unpackEntries (destination : List String) : Nat → Unpacked → Unpacking Unpacked
  | 0, x => pure x
  | entries + 1, x => do
    let (file, x) ← Process.ofExcept (readClientEntry bytes inflateRawSync x)
    match file with
    | some (name, content) => unpackFile destination name content
    | none => pure ()
    unpackEntries destination entries x

def extractClientArchive (destination : List String) : Unpacking Unit := do
  let (entries, centralSize, centralOffset) ← Process.ofExcept (clientDirectory bytes)
  let x ← unpackEntries bytes inflateRawSync destination entries { seen := [], cursor := centralOffset, expandedBytes := 0 }
  require (x.cursor = centralOffset + centralSize) .directorySize

end Client

end LatexRenderer
