import LatexRenderer.Machine.Fallible
import LatexRenderer.Machine.Json
import LatexRenderer.Machine.StringDecoder
import LatexRenderer.Model.Admission
import LatexRenderer.Model.Oidc.LoginFlows
import LatexRenderer.Model.Rows

/-! # Validation of renderer artifacts

An artifact is hashed, and its format is checked by its type: the first octets of a PDF and of a PNG, the JSON of
diagnostics, the elements and attributes of an SVG. The historical reader goes through the file once for each check;
`readArtifactSinglePass` reads it once, in chunks, with the XML parser and the decoder between them. The parser, the
digest and `toLowerCase` are given.
-/

namespace LatexRenderer.ArtifactValidator

open Machine

/-- `Stats`, as far as the reader compares them. -/
structure ArtifactStats where
  isFile : Bool
  nlink : Nat
  dev : Nat
  ino : Nat
  size : Nat
  mtimeMs : Nat
  ctimeMs : Nat
deriving DecidableEq

/-- An error: an `AppError`, or one that JSON or XML is not well-formed. -/
inductive ArtifactFailure where
  | app (error : AppError)
  | thrown
deriving DecidableEq

def artifactError (code message : String) : ArtifactFailure := .app ⟨code, message, 500⟩

/-! ## SVG -/

structure SvgAttribute where
  localName : Text
  value : Text
deriving DecidableEq

/-- An event of the XML parser that has a handler, or the error that it throws. -/
inductive SvgEvent where
  | doctype
  | processingInstruction
  | openTag (localName : Text) (attributes : List SvgAttribute)
  | ended
  | malformed

/-- The XML parser, which answers a write and a close with events, the digest, and `toLowerCase`. -/
structure ArtifactTools (σ : Type) where
  start : σ
  write : σ → Text → List SvgEvent × σ
  close : σ → List SvgEvent
  sha256 : Octets → Sha256
  toLowerCase : Text → Text

def includesText (part text : Text) : Bool := text.tails.any part.isPrefixOf

/-- `"script"` and the other elements that are forbidden. -/
def forbiddenElements : List Text :=
  ["script", "foreignobject", "iframe", "object", "embed", "audio", "video", "style", "text"].map String.toList

/-- `/^data:image\/(?:png|jpeg|gif|webp);base64,/`. -/
def dataImage (text : Text) : Bool :=
  ["png", "jpeg", "gif", "webp"].any fun kind => (("data:image/" ++ kind ++ ";base64,").toList).isPrefixOf text

/-- `['"]?#` at the beginning. -/
def fragmentReference : Text → Bool
  | [] => false
  | c :: rest => c == '#' || (c == '\'' || c == '"') && rest.head? == some '#'

/-- `url\(`, where the case of the letters makes no difference. -/
def urlOpening : Text → Option Text
  | a :: b :: c :: d :: rest =>
    if (a = 'u' ∨ a = 'U') ∧ (b = 'r' ∨ b = 'R') ∧ (c = 'l' ∨ c = 'L') ∧ d = '(' then some rest else none
  | _ => none

/-- `\s*(?!['"]?#)` at the beginning: some of the white space may be left to what follows. -/
def externalTarget (text : Text) : Bool :=
  (List.range ((text.takeWhile trimSpace).length + 1)).any fun taken => !fragmentReference (text.drop taken)

/-- `/url\(\s*(?!['"]?#)/i`. -/
def externalUrl (text : Text) : Bool := text.tails.any fun rest => (urlOpening rest).any externalTarget

/-- What writes are answered with, and the parser after them. -/
def ArtifactTools.writes {σ : Type} (tools : ArtifactTools σ) (parser : σ) : List Text → List SvgEvent × σ
  | [] => ([], parser)
  | text :: rest =>
    ((tools.write parser text).1 ++ (tools.writes (tools.write parser text).2 rest).1,
      (tools.writes (tools.write parser text).2 rest).2)

section Svg

variable {σ : Type} (tools : ArtifactTools σ)

def svgUnsafe (message : String) : ArtifactFailure := artifactError "SVG_UNSAFE" message

def svgRootMissing : ArtifactFailure := artifactError "SVG_INVALID" "SVG root element is missing"

def safeReference (normalized : Text) : Bool := ['#'].isPrefixOf normalized || dataImage normalized

/-- An attribute of an element. -/
def svgAttribute (item : SvgAttribute) : Except ArtifactFailure Unit := do
  demand (¬ "on".toList.isPrefixOf (tools.toLowerCase item.localName)) (svgUnsafe "SVG event attributes are forbidden")
  demand (tools.toLowerCase item.localName = "href".toList →
    safeReference (tools.toLowerCase (trimText item.value))) (svgUnsafe "SVG external references are forbidden")
  demand (tools.toLowerCase item.localName ≠ "xmlns".toList → tools.toLowerCase item.localName ≠ "xlink".toList →
    ¬ (includesText "javascript:".toList (tools.toLowerCase (trimText item.value)) ||
      includesText "@import".toList (tools.toLowerCase (trimText item.value)) || externalUrl item.value))
    (svgUnsafe "SVG active or external content is forbidden")

/-- The attributes of an element, one after another. -/
def svgAttributes : List SvgAttribute → Except ArtifactFailure Unit
  | [] => .ok ()
  | item :: rest => svgAttribute tools item >>= fun _ => svgAttributes rest

/-- The handlers. `root` says that an element was opened. -/
def svgEvent (root : Bool) : SvgEvent → Except ArtifactFailure Bool
  | .doctype => .error (svgUnsafe "SVG document types are forbidden")
  | .processingInstruction => .error (svgUnsafe "SVG processing instructions are forbidden")
  | .openTag localName attributes => do
    demand (root ∨ tools.toLowerCase localName = "svg".toList) svgRootMissing
    demand (¬ forbiddenElements.contains (tools.toLowerCase localName))
      (svgUnsafe ("SVG element is forbidden: " ++ String.ofList (tools.toLowerCase localName)))
    svgAttributes tools attributes
    .ok true
  | .ended => do
    demand root svgRootMissing
    .ok root
  | .malformed => .error .thrown

/-- Events, up to the first one whose handler throws. -/
def svgEvents (root : Bool) : List SvgEvent → Except ArtifactFailure Bool
  | [] => .ok root
  | event :: rest => svgEvent tools root event >>= fun root => svgEvents root rest

/-- The events of writes and a close. -/
def ArtifactTools.events (texts : List Text) : List SvgEvent :=
  (tools.writes tools.start texts).1 ++ tools.close (tools.writes tools.start texts).2

/-- The parser gives the same events for a stream as for the whole text. -/
def ArtifactTools.Streams : Prop := ∀ texts, tools.events texts = tools.events [texts.flatten]

/-- `catch`: an error of the parser becomes an `AppError`. -/
def catchSvg {α : Type} : Except ArtifactFailure α → Except ArtifactFailure α
  | .ok value => .ok value
  | .error (.app error) => .error (.app error)
  | .error .thrown => .error (artifactError "SVG_INVALID" "SVG is not well-formed XML")

def validateSvg (value : Text) : Except ArtifactFailure Bool := catchSvg (svgEvents tools false (tools.events [value]))

end Svg

/-! ## The historical reader -/

/-- A file that the scan of the output tree has found. -/
structure ScannedFile where
  path : Text
  info : ArtifactStats
  content : Octets
  regular : info.isFile = true ∧ info.nlink = 1
  sized : info.size = content.length

structure ValidatedArtifact where
  path : Text
  type : ArtifactType
  size : Nat
  sha256 : Sha256
deriving DecidableEq

/-- `toString("ascii")`: the highest bit of each octet is dropped. -/
def asciiText (octets : Octets) : Text := octets.map fun octet => Char.ofNat (octet.toNat % 128)

def pngMagic : Octets := [0x89, 0x50, 0x4e, 0x47, 0x0d, 0x0a, 0x1a, 0x0a]

/-- The checks of the first octets. -/
def checkHead (type : ArtifactType) (head : Octets) : Except ArtifactFailure Unit := do
  demand (type = .pdf → asciiText (head.take 5) = "%PDF-".toList) (artifactError "PDF_MAGIC_INVALID" "result.pdf is not a PDF")
  demand (type = .preview → head = pngMagic) (artifactError "PNG_MAGIC_INVALID" "Preview is not a PNG")

section Readers

variable {σ : Type} (tools : ArtifactTools σ)

/-- The body of the loop of `validateArtifacts` without a candidate: every check reads the file anew. -/
def validateMultiPass (file : ScannedFile) (type : ArtifactType) : Except ArtifactFailure ValidatedArtifact := do
  checkHead type (file.content.take 8)
  demand (type = .errors ∨ type = .dependencies → (parseJson (utf8Text file.content)).isSome) .thrown
  if type = .svg then
    let _ ← validateSvg tools (utf8Text file.content)
    .ok ⟨file.path, type, file.info.size, tools.sha256 file.content⟩
  else .ok ⟨file.path, type, file.info.size, tools.sha256 file.content⟩

/-! ## The single pass -/

/-- What one pass keeps of the file: how many octets came, the octets that were hashed, the first ones, and the chunks
of metadata. -/
structure PassRecord where
  bytes : Nat
  hashed : Octets
  head : Octets
  chunks : Option (List Octets)

/-- The parser, the decoder before it, and whether an element was opened. -/
structure SvgPass (σ : Type) where
  parser : σ
  decoder : StringDecoder
  root : Bool

structure PassState (σ : Type) where
  record : PassRecord
  svg : Option (SvgPass σ)

/-- A chunk is hashed and kept. -/
def PassRecord.add (record : PassRecord) (chunk : Octets) : PassRecord where
  bytes := record.bytes + chunk.length
  hashed := record.hashed ++ chunk
  head := if record.head.length < 8 then record.head ++ chunk.take (8 - record.head.length) else record.head
  chunks := record.chunks.map (· ++ [chunk])

/-- `parser.write(text)`. -/
def SvgPass.write (pass : SvgPass σ) (text : Text) (decoder : StringDecoder) : Except ArtifactFailure (SvgPass σ) :=
  (svgEvents tools pass.root (tools.write pass.parser text).1).map fun root =>
    ⟨(tools.write pass.parser text).2, decoder, root⟩

/-- `parser.write(decoder.write(chunk))`. -/
def SvgPass.chunk (pass : SvgPass σ) (chunk : Octets) : Except ArtifactFailure (SvgPass σ) :=
  pass.write tools (pass.decoder.write chunk).1 (pass.decoder.write chunk).2

/-- `parser.write(decoder.end()).close()`. -/
def SvgPass.finish (pass : SvgPass σ) : Except ArtifactFailure Bool :=
  pass.write tools pass.decoder.finish .new >>= fun pass => svgEvents tools pass.root (tools.close pass.parser)

/-- A turn of the loop. -/
def passChunk (expected : ArtifactStats) (state : PassState σ) (chunk : Octets) :
    Except ArtifactFailure (PassState σ) := do
  demand (state.record.bytes + chunk.length ≤ expected.size)
    (artifactError "UNSAFE_ARTIFACT" "Artifact grew during validation")
  let svg ← state.svg.elim (.ok none) fun pass => (pass.chunk tools chunk).map some
  .ok ⟨state.record.add chunk, svg⟩

/-- The loop. -/
def passChunks (expected : ArtifactStats) (state : PassState σ) : List Octets → Except ArtifactFailure (PassState σ)
  | [] => .ok state
  | chunk :: rest => passChunk tools expected state chunk >>= fun state => passChunks expected state rest

def unchanged (expected info : ArtifactStats) : Bool :=
  info.isFile && decide (info.nlink = 1) && decide (info.dev = expected.dev) && decide (info.ino = expected.ino) &&
    decide (info.size = expected.size) && decide (info.mtimeMs = expected.mtimeMs) &&
    decide (info.ctimeMs = expected.ctimeMs)

def artifactChanged : ArtifactFailure := artifactError "UNSAFE_ARTIFACT" "Artifact changed during validation"

/-- What `readArtifactSinglePass` returns. -/
structure PassResult where
  sha256 : Sha256
  metadata : Option Octets

/-- What the pass starts with. -/
def passStart (type : ArtifactType) : PassState σ where
  record :=
    { bytes := 0
      hashed := []
      head := []
      chunks := if type = .errors ∨ type = .dependencies ∨ type = .svgManifest then some [] else none }
  svg := if type = .svg then some ⟨tools.start, .new, false⟩ else none

/-- `Buffer.concat(chunks, bytes)`. -/
def PassRecord.metadata (record : PassRecord) : Option Octets :=
  record.chunks.map fun chunks => chunks.flatten.take record.bytes

/-- The body of the `try`. The first status is taken when the file is opened, the last one after the loop. -/
def readSinglePass (type : ArtifactType) (expected opened : ArtifactStats) (chunks : List Octets) (closed : ArtifactStats) :
    Except ArtifactFailure PassResult := do
  demand (unchanged expected opened) artifactChanged
  let state ← passChunks tools expected (passStart tools type) chunks
  demand (state.record.bytes = expected.size ∧ unchanged expected closed) artifactChanged
  checkHead type state.record.head
  demand (type = .errors ∨ type = .dependencies →
    state.record.metadata.all fun metadata => (parseJson (utf8Text metadata)).isSome) .thrown
  let _ ← state.svg.elim (.ok true) fun pass => pass.finish tools
  .ok ⟨tools.sha256 state.record.hashed, if type = .svgManifest then state.record.metadata else none⟩

def readArtifactSinglePass (type : ArtifactType) (expected opened : ArtifactStats) (chunks : List Octets)
    (closed : ArtifactStats) : Except ArtifactFailure PassResult :=
  if type = .svg then catchSvg (readSinglePass tools type expected opened chunks closed)
  else readSinglePass tools type expected opened chunks closed

/-- The body of the loop of `validateArtifacts` with the single pass as its candidate. -/
def validateSinglePass (file : ScannedFile) (type : ArtifactType) (opened : ArtifactStats) (chunks : List Octets)
    (closed : ArtifactStats) : Except ArtifactFailure ValidatedArtifact :=
  (readArtifactSinglePass tools type file.info opened chunks closed).map fun validated =>
    ⟨file.path, type, file.info.size, validated.sha256⟩

end Readers

/-! ## All artifacts -/

/-- `/^svg\/objects\/(?:math|tikz)-[0-9]{6}\.svg$/`. -/
def svgObjectPath (path : Text) : Bool :=
  ["svg/objects/math-", "svg/objects/tikz-"].any fun front => front.toList.isPrefixOf path &&
    ((path.drop front.toList.length).take 6).all numeral &&
    decide (path.drop (front.toList.length + 6) = ".svg".toList)

/-- `/^previews\/page-[0-9]+\.png$/`. -/
def previewPath (path : Text) : Bool :=
  "previews/page-".toList.isPrefixOf path &&
    !((path.drop "previews/page-".toList.length).takeWhile numeral).isEmpty &&
    decide ((path.drop "previews/page-".toList.length).dropWhile numeral = ".png".toList)

def artifactType (path : Text) : Option ArtifactType :=
  if path = "result.pdf".toList then some .pdf
  else if path = "compile.log".toList ∨ path = "svg/compile.log".toList then some .log
  else if path = "errors.json".toList ∨ path = "svg/errors.json".toList then some .errors
  else if path = "dependencies.json".toList ∨ path = "svg/dependencies.json".toList then some .dependencies
  else if path = "svg/manifest.json".toList then some .svgManifest
  else if svgObjectPath path then some .svg
  else if previewPath path then some .preview
  else none

/-- The limits of `WorkerConfig` on outputs. -/
structure OutputLimits where
  maxOutputBytes : Nat
  maxLogBytes : Nat
  maxSvgBytes : Nat
  maxSvgTotalBytes : Nat

structure OutputTotals where
  total : Nat
  previewTotal : Nat
  svgTotal : Nat

/-- A file is counted. -/
def OutputTotals.add (totals : OutputTotals) (type : ArtifactType) (size : Nat) : OutputTotals where
  total := totals.total + size
  previewTotal := if type = .preview then totals.previewTotal + size else totals.previewTotal
  svgTotal := if type = .svg ∨ type = .svgManifest then totals.svgTotal + size else totals.svgTotal

/-- No limit is passed by a file and the totals with it. -/
def OutputLimits.holds (limits : OutputLimits) (totals : OutputTotals) (type : ArtifactType) (size : Nat) : Prop :=
  totals.total ≤ limits.maxOutputBytes ∧ (type = .log → size ≤ limits.maxLogBytes) ∧
    (type = .pdf → size ≤ 100 * 1024 * 1024) ∧ (type = .svg → size ≤ limits.maxSvgBytes) ∧
    totals.previewTotal ≤ 150 * 1024 * 1024 ∧ totals.svgTotal ≤ limits.maxSvgTotalBytes

instance (limits : OutputLimits) (totals : OutputTotals) (type : ArtifactType) (size : Nat) :
    Decidable (limits.holds totals type size) := by
  unfold OutputLimits.holds
  infer_instance

/-- The loop of `validateArtifacts` over the files of the scan, with one of the readers. -/
def validateFiles (limits : OutputLimits) (read : ScannedFile → ArtifactType → Except ArtifactFailure ValidatedArtifact) :
    OutputTotals → List ScannedFile → Except ArtifactFailure (List ValidatedArtifact)
  | _, [] => .ok []
  | totals, file :: rest =>
    (artifactType file.path).elim (validateFiles limits read totals rest) fun type => do
      demand (limits.holds (totals.add type file.info.size) type file.info.size)
        (artifactError "OUTPUT_LIMIT" "Renderer output exceeds limit")
      let validated ← read file type
      let later ← validateFiles limits read (totals.add type file.info.size) rest
      .ok (validated :: later)

/-- `validateArtifacts` after the scan. `svgSet` is `validateSvgSet`, where one is required. -/
def validateArtifacts (limits : OutputLimits) (requirePdf : Bool)
    (svgSet : Option (List ValidatedArtifact → Except ArtifactFailure Unit)) (diagnosticPrefix : Text)
    (read : ScannedFile → ArtifactType → Except ArtifactFailure ValidatedArtifact) (files : List ScannedFile) :
    Except ArtifactFailure (List ValidatedArtifact) := do
  let result ← validateFiles limits read ⟨0, 0, 0⟩ files
  demand (requirePdf → result.any fun item => decide (item.type = .pdf))
    (artifactError "PDF_MISSING" "Renderer did not emit result.pdf")
  svgSet.elim (.ok ()) fun check => check result
  demand ((result.any fun item => decide (item.path = diagnosticPrefix ++ "compile.log".toList)) ∧
      result.any fun item => decide (item.path = diagnosticPrefix ++ "errors.json".toList))
    (artifactError "DIAGNOSTICS_MISSING" "Renderer diagnostics are missing")
  .ok result

end LatexRenderer.ArtifactValidator
