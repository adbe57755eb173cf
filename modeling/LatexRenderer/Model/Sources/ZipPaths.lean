import LatexRenderer.Machine.Paths
import LatexRenderer.Model.Deploy.LanAddress

/-! # Paths in a source archive

`normalizeEntry` decides which names an archive may hold. `validateEntrypointPath` and `validateSourceFilePath` check the
paths of requests, and leave what a path may be to it.
-/

namespace LatexRenderer

open Machine

structure ZipLimits where
  maxExtractedBytes : Nat
  maxFileBytes : Nat
  maxEntries : Nat
  maxFiles : Nat
  maxDepth : Nat
  maxNameLength : Nat
deriving DecidableEq, Repr

/-- The errors about archives and their trees; the status of all of them is 422. -/
inductive ZipError where
  | controlCharacter
  | absolutePath
  | depth
  | dotPath
  | unsafeName
  | entrypointPath
  | entrypointExtension
  | sourcePath
  | extension (rejected : Text)
  | invalidZip
  | invalidDirectory
  | tooManyEntries
  | localHeader
  | headerMismatch
  | headerNames
  | headerSizes
  | duplicatePath
  | encrypted
  | specialFile
  | tooManyFiles
  | fileTooLarge
  | suspiciousRatio
  | slip
  | symlinkEscape
  | unreadableEntry
  | bomb
  | sizeMismatch
  | entrypointMissing (entrypoint : Text)
  | texMissing
  | treeMismatch
  | verifiedEntrypointMissing
  | io
deriving DecidableEq, Repr

/-- The code of an error. -/
def ZipError.code : ZipError → String
  | .controlCharacter => "ZIP_CONTROL_CHARACTER"
  | .absolutePath => "ZIP_ABSOLUTE_PATH"
  | .depth => "ZIP_DEPTH"
  | .dotPath => "ZIP_DOT_PATH"
  | .unsafeName => "ZIP_UNSAFE_NAME"
  | .entrypointPath | .entrypointExtension => "INVALID_ENTRYPOINT"
  | .sourcePath => "INVALID_SOURCE_PATH"
  | .extension _ => "ZIP_EXTENSION_REJECTED"
  | .invalidZip | .invalidDirectory => "INVALID_ZIP"
  | .tooManyEntries => "ZIP_TOO_MANY_ENTRIES"
  | .localHeader => "ZIP_LOCAL_HEADER_INVALID"
  | .headerMismatch | .headerNames | .headerSizes => "ZIP_HEADER_MISMATCH"
  | .duplicatePath => "ZIP_DUPLICATE_PATH"
  | .encrypted => "ZIP_ENCRYPTED"
  | .specialFile => "ZIP_SPECIAL_FILE"
  | .tooManyFiles => "ZIP_TOO_MANY_FILES"
  | .fileTooLarge => "ZIP_FILE_TOO_LARGE"
  | .suspiciousRatio => "ZIP_SUSPICIOUS_RATIO"
  | .slip => "ZIP_SLIP"
  | .symlinkEscape => "ZIP_SYMLINK_ESCAPE"
  | .unreadableEntry => "INVALID_ZIP_ENTRY"
  | .bomb => "ZIP_BOMB"
  | .sizeMismatch => "ZIP_SIZE_MISMATCH"
  | .entrypointMissing _ | .verifiedEntrypointMissing => "ENTRYPOINT_MISSING"
  | .texMissing => "TEX_ENTRYPOINT_MISSING"
  | .treeMismatch => "SOURCE_TREE_MISMATCH"
  | .io => "EIO"

/-- The text of an error. -/
def ZipError.message : ZipError → String
  | .controlCharacter => "ZIP path contains control characters"
  | .absolutePath => "ZIP contains an absolute path"
  | .depth => "ZIP path depth is invalid"
  | .dotPath => "ZIP path has an unsafe component"
  | .unsafeName => "ZIP path contains an unsafe file name"
  | .entrypointPath => "Entrypoint must be a relative POSIX .tex path"
  | .entrypointExtension => "Entrypoint must end in .tex"
  | .sourcePath => "Source path must name a file"
  | .extension rejected => "Extension is not allowed: " ++ String.ofList rejected
  | .invalidZip => "ZIP could not be opened"
  | .invalidDirectory => "ZIP directory is invalid"
  | .tooManyEntries => "ZIP entry count exceeds limit"
  | .localHeader => "ZIP local header is invalid"
  | .headerMismatch => "ZIP central and local headers do not match"
  | .headerNames => "ZIP central and local file names do not match"
  | .headerSizes => "ZIP central and local sizes do not match"
  | .duplicatePath => "ZIP contains duplicate normalized paths"
  | .encrypted => "Encrypted ZIP entries are not allowed"
  | .specialFile => "Links and special files are not allowed"
  | .tooManyFiles => "ZIP file count exceeds limit"
  | .fileTooLarge => "ZIP entry exceeds per-file limit"
  | .suspiciousRatio => "ZIP compression ratio is unsafe"
  | .slip => "ZIP path escapes extraction root"
  | .symlinkEscape => "ZIP parent escapes extraction root"
  | .unreadableEntry => "ZIP entry cannot be read"
  | .bomb => "Extracted data exceeds limit"
  | .sizeMismatch => "ZIP entry size does not match header"
  | .entrypointMissing entrypoint =>
    "ZIP does not contain the requested entrypoint: " ++ String.ofList entrypoint
  | .texMissing => "ZIP must contain at least one .tex file"
  | .treeMismatch => "Verified Source tree failed integrity validation"
  | .verifiedEntrypointMissing => "Verified Source does not contain the requested entrypoint"
  | .io => "I/O error"

/-- `[\u0000-\u001f\u007f]`. -/
def controlCharacter (c : Char) : Bool := decide (c.toNat ≤ 0x1f) || decide (c.toNat = 0x7f)

/-- `/^[A-Za-z]:/`. -/
def driveLetter : Text → Bool
  | letter :: ':' :: _ => letter.isAlpha
  | _ => false

/-- The names of `windowsReserved`. -/
def windowsNames : List Text :=
  ["con".toList, "prn".toList, "aux".toList, "nul".toList] ++
    ["com".toList, "lpt".toList].flatMap fun port => "123456789".toList.map fun digit => port ++ [digit]

/-- `windowsReserved`: one of the names up to the end or to the first dot. -/
def windowsReserved (part : Text) : Bool :=
  windowsNames.contains ((part.takeWhile fun c => c != '.').map Char.toLower)

def byteLength (text : Text) : Nat := (text.map Char.utf8Size).sum

/-- What every component of a path has to be. -/
def checkEntryPart (limits : ZipLimits) (part : Text) : Except ZipError Unit := do
  demand (part ≠ [] ∧ part ≠ ['.'] ∧ part ≠ ['.', '.']) .dotPath
  demand (part.length ≤ limits.maxNameLength ∧ byteLength part ≤ 255 ∧
    part.getLast? ≠ some ' ' ∧ part.getLast? ≠ some '.' ∧ windowsReserved part = false) .unsafeName

/-- The loop of `normalizeEntry`. -/
def checkEntryParts (limits : ZipLimits) : List Text → Except ZipError Unit
  | [] => .ok ()
  | part :: rest => do
    checkEntryPart limits part
    checkEntryParts limits rest

/-- A backslash is a slash. -/
def slashed (c : Char) : Char := if c = '\\' then '/' else c

/-- The components of a path, with or without a slash after them. -/
def entryParts (path : Text) : List Text :=
  if path.getLast? = some '/' then (splitText '/' path).dropLast else splitText '/' path

def normalizeEntry (limits : ZipLimits) (name : Text) : Except ZipError Text := do
  demand (name.any controlCharacter = false) .controlCharacter
  let replaced := name.map slashed
  demand (replaced.head? ≠ some '/' ∧ driveLetter replaced = false) .absolutePath
  let parts := entryParts replaced
  demand (parts ≠ [] ∧ parts.length ≤ limits.maxDepth) .depth
  checkEntryParts limits parts
  pure (joinText '/' parts ++ if replaced.getLast? = some '/' then ['/'] else [])

/-- The segments of a path, for `resolve`. -/
def pathSegments (path : Text) : List String := (splitText '/' path).map String.ofList

/-- The last segment of a path that is not empty. -/
def baseName (path : Text) : Text := ((splitText '/' path).reverse.dropWhile fun part => part = []).headD []

def extname (path : Text) : Text :=
  let base := baseName path
  let extension := (base.reverse.takeWhile fun c => c != '.').reverse
  if base = ['.', '.'] ∨ '.' ∉ base ∨ extension.length + 1 = base.length then [] else '.' :: extension

def allowedExtensions : List Text :=
  [".tex", ".sty", ".cls", ".bib", ".bst", ".csv", ".dat", ".txt", ".png", ".jpg", ".jpeg", ".pdf"].map String.toList

/-- The limits that a check of one path has besides those of names. -/
def ZipLimits.ofPath (limits : ZipLimits) : ZipLimits :=
  { limits with maxExtractedBytes := 1, maxFileBytes := 1, maxEntries := 1, maxFiles := 1 }

/-- `validateEntrypointPath`; lower case is that of the whole of Unicode. -/
def validateEntrypointPath (toLowerCase : Text → Text) (limits : ZipLimits) (value : Text) : Except ZipError Text := do
  demand (value.getLast? ≠ some '/' ∧ '\\' ∉ value) .entrypointPath
  let normalized ← normalizeEntry limits.ofPath value
  demand (toLowerCase (extname normalized) = ".tex".toList) .entrypointExtension
  pure normalized

def validateSourceFilePath (toLowerCase : Text → Text) (limits : ZipLimits) (value : Text) : Except ZipError Text := do
  demand (value.getLast? ≠ some '/') .sourcePath
  let normalized ← normalizeEntry limits.ofPath value
  let extension := toLowerCase (extname normalized)
  demand (allowedExtensions.contains extension) (.extension extension)
  pure normalized

end LatexRenderer
