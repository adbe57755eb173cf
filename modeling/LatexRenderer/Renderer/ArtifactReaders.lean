import LatexRenderer.Model.Renderer.ArtifactValidator

/-! # The single pass reads what the passes read

However a file is cut into chunks, the single pass keeps its first octets, its digest and its metadata, and its decoder
and parser see the events of the whole text. So it answers what the passes over the file answer, errors included.
-/

namespace LatexRenderer.ArtifactValidator

open Machine

section Readers

variable {σ : Type} (tools : ArtifactTools σ)

/-! ## Events -/

theorem svgEvents_append (root : Bool) (front back : List SvgEvent) :
    svgEvents tools root (front ++ back) = svgEvents tools root front >>= fun root => svgEvents tools root back := by
  induction front generalizing root with
  | nil => rfl
  | cons event rest ih =>
    rw [List.cons_append, svgEvents, svgEvents, bind_assoc]
    congr 1
    funext root
    exact ih root

theorem ArtifactTools.writes_append (parser : σ) (front back : List Text) :
    tools.writes parser (front ++ back) =
      ((tools.writes parser front).1 ++ (tools.writes (tools.writes parser front).2 back).1,
        (tools.writes (tools.writes parser front).2 back).2) := by
  induction front generalizing parser with
  | nil => rfl
  | cons text rest ih => simp only [List.cons_append, ArtifactTools.writes, ih, List.append_assoc]

/-- The chunks, one after another. -/
def SvgPass.chunks (pass : SvgPass σ) : List Octets → Except ArtifactFailure (SvgPass σ)
  | [] => .ok pass
  | chunk :: rest => pass.chunk tools chunk >>= fun pass => pass.chunks rest

/-- What the chunks are answered with decides how the handlers end. -/
theorem SvgPass.chunks_eq (pass : SvgPass σ) (chunks : List Octets) :
    pass.chunks tools chunks =
      (svgEvents tools pass.root (tools.writes pass.parser (pass.decoder.writes chunks).1).1).map fun root =>
        ⟨(tools.writes pass.parser (pass.decoder.writes chunks).1).2, (pass.decoder.writes chunks).2, root⟩ := by
  induction chunks generalizing pass with
  | nil => rfl
  | cons chunk rest ih =>
    rw [SvgPass.chunks, SvgPass.chunk, SvgPass.write]
    simp only [StringDecoder.writes, ArtifactTools.writes, svgEvents_append]
    cases svgEvents tools pass.root (tools.write pass.parser (pass.decoder.write chunk).1).1 with
    | error error => rfl
    | ok root => exact ih _

/-- The chunks and the end make the handlers see the events of their texts. -/
theorem SvgPass.chunks_finish (chunks : List Octets) :
    (SvgPass.chunks tools ⟨tools.start, .new, false⟩ chunks >>= fun pass => pass.finish tools) =
      svgEvents tools false (tools.events ((StringDecoder.new.writes chunks).1 ++ [(StringDecoder.new.writes chunks).2.finish])) := by
  rw [SvgPass.chunks_eq, ArtifactTools.events, tools.writes_append, List.append_assoc, svgEvents_append]
  cases svgEvents tools false (tools.writes tools.start (StringDecoder.new.writes chunks).1).1 with
  | error error => rfl
  | ok root =>
    show SvgPass.finish tools _ = svgEvents tools root _
    rw [SvgPass.finish, SvgPass.write, svgEvents_append]
    simp only [ArtifactTools.writes, List.append_nil]
    cases svgEvents tools root (tools.write (tools.writes tools.start (StringDecoder.new.writes chunks).1).2
      (StringDecoder.new.writes chunks).2.finish).1 with
    | error error => rfl
    | ok root => rfl

/-! ## What is kept -/

/-- The record keeps these octets of the file. -/
structure PassRecord.Keeps (record : PassRecord) (octets : Octets) : Prop where
  bytes : record.bytes = octets.length
  hashed : record.hashed = octets
  head : record.head = octets.take 8
  chunks : ∀ chunks ∈ record.chunks, chunks.flatten = octets

theorem PassRecord.Keeps.add {record : PassRecord} {octets : Octets} (keeps : record.Keeps octets) (chunk : Octets) :
    (record.add chunk).Keeps (octets ++ chunk) := by
  constructor
  · rw [PassRecord.add, keeps.bytes, List.length_append]
  · rw [PassRecord.add, keeps.hashed]
  · show (if record.head.length < 8 then record.head ++ chunk.take (8 - record.head.length) else record.head) = _
    rw [keeps.head, List.take_append, List.length_take]
    split_ifs with short
    · rw [show min 8 octets.length = octets.length by omega]
    · rw [show 8 - octets.length = 0 by omega, List.take_zero, List.append_nil]
  · intro chunks kept
    obtain ⟨before, old, rfl⟩ := Option.map_eq_some_iff.mp kept
    rw [List.flatten_append, keeps.chunks before old, List.flatten_singleton]

/-- The record after chunks. -/
def PassRecord.adds (record : PassRecord) (chunks : List Octets) : PassRecord := chunks.foldl PassRecord.add record

theorem PassRecord.Keeps.adds {record : PassRecord} {octets : Octets} (keeps : record.Keeps octets)
    (chunks : List Octets) : (record.adds chunks).Keeps (octets ++ chunks.flatten) := by
  induction chunks generalizing record octets with
  | nil => simpa [PassRecord.adds] using keeps
  | cons chunk rest ih =>
    have later := ih (keeps.add chunk)
    rwa [List.append_assoc] at later

theorem PassRecord.isSome_adds (record : PassRecord) (chunks : List Octets) :
    (record.adds chunks).chunks.isSome = record.chunks.isSome := by
  induction chunks generalizing record with
  | nil => rfl
  | cons chunk rest ih => exact (ih (record.add chunk)).trans Option.isSome_map

theorem keeps_start (type : ArtifactType) : (passStart tools type).record.Keeps [] := by
  refine ⟨rfl, rfl, rfl, fun chunks kept => ?_⟩
  simp only [passStart] at kept
  split_ifs at kept with some
  · cases kept
    rfl
  · cases kept

theorem PassRecord.Keeps.metadata {record : PassRecord} {octets : Octets} (keeps : record.Keeps octets)
    (some : record.chunks.isSome = true) : record.metadata = .some octets := by
  obtain ⟨chunks, kept⟩ := Option.isSome_iff_exists.mp some
  rw [PassRecord.metadata, kept, Option.map_some, keeps.chunks chunks kept, keeps.bytes, List.take_length]

/-! ## The loop -/

/-- While the file does not grow, the loop keeps its octets and hands them to the parser. -/
theorem passChunks_eq (expected : ArtifactStats) {state : PassState σ} (chunks : List Octets) {octets : Octets}
    (keeps : state.record.Keeps octets) (fits : (octets ++ chunks.flatten).length ≤ expected.size) :
    passChunks tools expected state chunks =
      (state.svg.elim (.ok none) fun pass => (pass.chunks tools chunks).map some).map fun svg =>
        ⟨state.record.adds chunks, svg⟩ := by
  induction chunks generalizing state octets with
  | nil =>
    obtain ⟨record, svg⟩ := state
    cases svg <;> rfl
  | cons chunk rest ih =>
    rw [List.flatten_cons, ← List.append_assoc] at fits
    have bound : state.record.bytes + chunk.length ≤ expected.size := by
      rw [keeps.bytes]
      simp only [List.length_append] at fits
      omega
    rw [passChunks, passChunk, demand_of bound, ok_bind]
    obtain ⟨record, svg⟩ := state
    cases svg with
    | none =>
      show passChunks tools expected ⟨record.add chunk, none⟩ rest = _
      rw [ih (keeps.add chunk) fits]
      rfl
    | some pass =>
      simp only [Option.elim_some, SvgPass.chunks]
      cases pass.chunk tools chunk with
      | error error => rfl
      | ok next =>
        show passChunks tools expected ⟨record.add chunk, some next⟩ rest = _
        rw [ih (keeps.add chunk) fits]
        rfl

/-! ## The readers agree -/

theorem demand_congr {first second : Prop} [Decidable first] [Decidable second] (same : first ↔ second)
    (error : ArtifactFailure) : demand first error = demand second error := by
  by_cases holds : second
  · rw [demand_of holds, demand_of (same.mpr holds)]
  · rw [demand_not holds, demand_not fun first => holds (same.mp first)]

theorem unchanged_self (file : ScannedFile) : unchanged file.info file.info = true := by
  obtain ⟨isFile, nlink⟩ := file.regular
  simp [unchanged, isFile, nlink]

variable {file : ScannedFile} {chunks : List Octets}

theorem checkHead_svg (head : Octets) : checkHead .svg head = .ok () := by
  rw [checkHead, demand_of fun same => absurd same (by decide), ok_bind, demand_of fun same => absurd same (by decide)]

theorem metadata_adds (type : ArtifactType) (whole : chunks.flatten = file.content) :
    (type = .errors ∨ type = .dependencies →
      ((passStart tools type).record.adds chunks).metadata.all fun metadata => (parseJson (utf8Text metadata)).isSome) ↔
    (type = .errors ∨ type = .dependencies → (parseJson (utf8Text file.content)).isSome = true) := by
  have keeps := (keeps_start tools type).adds chunks
  rw [List.nil_append, whole] at keeps
  apply imp_congr_right
  intro json
  have some : ((passStart tools type).record.adds chunks).chunks.isSome = true := by
    rw [PassRecord.isSome_adds]
    rcases json with rfl | rfl <;> rfl
  rw [keeps.metadata some, Option.all_some]

theorem readSinglePass_eq (type : ArtifactType) (whole : chunks.flatten = file.content) :
    (readSinglePass tools type file.info file.info chunks file.info).map PassResult.sha256 =
      ((passStart tools type).svg.elim (.ok none) fun pass => (pass.chunks tools chunks).map some) >>= fun svg =>
        checkHead type (file.content.take 8) >>= fun _ =>
        demand (type = .errors ∨ type = .dependencies → (parseJson (utf8Text file.content)).isSome) .thrown >>= fun _ =>
        svg.elim (.ok true) (fun pass => pass.finish tools) >>= fun _ => .ok (tools.sha256 file.content) := by
  have keeps := (keeps_start tools type).adds chunks
  rw [List.nil_append, whole] at keeps
  have loop := passChunks_eq tools file.info chunks (keeps_start tools type) (by
    rw [List.nil_append, whole, file.sized])
  rw [readSinglePass, demand_of (unchanged_self file), ok_bind, loop]
  cases (passStart tools type).svg.elim (.ok none) fun pass => (pass.chunks tools chunks).map some with
  | error error => rfl
  | ok svg =>
    show Except.map PassResult.sha256 (demand (((passStart tools type).record.adds chunks).bytes = file.info.size ∧
      unchanged file.info file.info) artifactChanged >>= _) = _
    rw [demand_of ⟨keeps.bytes.trans file.sized.symm, unchanged_self file⟩, ok_bind, keeps.head,
      demand_congr (metadata_adds tools type whole), keeps.hashed]
    cases checkHead type (file.content.take 8) with
    | error error => rfl
    | ok _ =>
      rw [ok_bind, ok_bind]
      by_cases json : type = .errors ∨ type = .dependencies → (parseJson (utf8Text file.content)).isSome = true
      · rw [demand_of json, ok_bind, ok_bind]
        cases svg.elim (.ok true) fun pass => pass.finish tools <;> rfl
      · rw [demand_not json]
        rfl

/-- The pass over an SVG ends as its handlers end on the whole text. -/
theorem readSinglePass_svg (streams : tools.Streams) (whole : chunks.flatten = file.content) :
    (readSinglePass tools .svg file.info file.info chunks file.info).map PassResult.sha256 =
      svgEvents tools false (tools.events [utf8Text file.content]) >>= fun _ => .ok (tools.sha256 file.content) := by
  have text := StringDecoder.stringDecoder_spec chunks
  have seen := SvgPass.chunks_finish tools chunks
  rw [streams, List.flatten_append, List.flatten_singleton, text, whole] at seen
  rw [readSinglePass_eq tools .svg whole, ← seen]
  show ((SvgPass.chunks tools ⟨tools.start, .new, false⟩ chunks).map some >>= _) = _
  cases SvgPass.chunks tools ⟨tools.start, .new, false⟩ chunks with
  | error error => rfl
  | ok pass =>
    rw [Except.map, ok_bind, ok_bind, checkHead_svg, ok_bind, demand_of fun json => absurd json (by decide), ok_bind]
    rfl

theorem catchSvg_map {α β : Type} (f : α → β) (result : Except ArtifactFailure α) :
    (catchSvg result).map f = catchSvg (result.map f) := by
  cases result with
  | ok value => rfl
  | error error => cases error <;> rfl

/-- A validated artifact takes no more than the digest from the pass. -/
theorem validated_map (file : ScannedFile) (type : ArtifactType) {read : Except ArtifactFailure PassResult}
    {digest : Except ArtifactFailure Sha256} (same : read.map PassResult.sha256 = digest) :
    (read.map fun validated => (⟨file.path, type, file.info.size, validated.sha256⟩ : ValidatedArtifact)) =
      digest.map fun sha256 => ⟨file.path, type, file.info.size, sha256⟩ := by
  subst same
  cases read <;> rfl

/-- However a file is cut into chunks, the single pass answers what the passes over the file answer: it accepts the same
files, with the same size and digest, and it fails with the same errors. -/
theorem validateSinglePass_eq (streams : tools.Streams) (file : ScannedFile) (type : ArtifactType) (chunks : List Octets)
    (whole : chunks.flatten = file.content) :
    validateSinglePass tools file type file.info chunks file.info = validateMultiPass tools file type := by
  by_cases svg : type = .svg
  · subst svg
    rw [validateSinglePass, readArtifactSinglePass, if_pos rfl, catchSvg_map,
      validated_map file .svg (readSinglePass_svg tools streams whole), validateMultiPass, checkHead_svg, ok_bind,
      demand_of fun json => absurd json (by decide), ok_bind, if_pos rfl, validateSvg]
    cases svgEvents tools false (tools.events [utf8Text file.content]) with
    | error error => cases error <;> rfl
    | ok root => rfl
  · have none : (passStart tools type).svg = none := if_neg svg
    rw [validateSinglePass, readArtifactSinglePass, if_neg svg, validated_map file type (readSinglePass_eq tools type whole),
      validateMultiPass, if_neg svg, none, Option.elim_none, ok_bind]
    cases checkHead type (file.content.take 8) with
    | error error => rfl
    | ok _ =>
      rw [ok_bind, ok_bind]
      by_cases json : type = .errors ∨ type = .dependencies → (parseJson (utf8Text file.content)).isSome = true
      · rw [demand_of json]
        rfl
      · rw [demand_not json]
        rfl

/-- The loop over the files of the scan ends in the same way with either reader. -/
theorem validateFiles_congr {limits : OutputLimits}
    {read other : ScannedFile → ArtifactType → Except ArtifactFailure ValidatedArtifact}
    (same : ∀ file type, read file type = other file type) (totals : OutputTotals) (files : List ScannedFile) :
    validateFiles limits read totals files = validateFiles limits other totals files := by
  induction files generalizing totals with
  | nil => rfl
  | cons file rest ih =>
    rw [validateFiles, validateFiles]
    cases artifactType file.path with
    | none => exact ih totals
    | some type => simp only [Option.elim_some, same, ih]

/-- With the single pass as its candidate, `validateArtifacts` answers what it answers with the historical reader. -/
theorem validateArtifacts_singlePass (streams : tools.Streams) (limits : OutputLimits) (requirePdf : Bool)
    (svgSet : Option (List ValidatedArtifact → Except ArtifactFailure Unit)) (diagnosticPrefix : Text)
    (split : ScannedFile → List Octets) (whole : ∀ file, (split file).flatten = file.content) (files : List ScannedFile) :
    validateArtifacts limits requirePdf svgSet diagnosticPrefix
        (fun file type => validateSinglePass tools file type file.info (split file) file.info) files =
      validateArtifacts limits requirePdf svgSet diagnosticPrefix (validateMultiPass tools) files := by
  rw [validateArtifacts, validateArtifacts,
    validateFiles_congr fun file type => validateSinglePass_eq tools streams file type (split file) (whole file)]

/-- `readArtifactSinglePass` accepts the files that the multi-pass validation accepts, with the same size and digest. -/
theorem readArtifactSinglePass_eq (streams : tools.Streams) (file : ScannedFile) (type : ArtifactType)
    (chunks : List Octets) (whole : chunks.flatten = file.content) :
    (readArtifactSinglePass tools type file.info file.info chunks file.info).map
        (fun validated => (⟨file.path, type, file.info.size, validated.sha256⟩ : ValidatedArtifact)) =
      validateMultiPass tools file type :=
  validateSinglePass_eq tools streams file type chunks whole

end Readers

/-- An SVG with an attribute. -/
def smallSvg : Text := "<svg a=\"é\"/>".toList

/-- A parser that waits for the whole text, for which it knows one SVG, and the digest of that SVG. -/
def smallTools : ArtifactTools Text where
  start := []
  write seen text := ([], seen ++ text)
  close seen :=
    if seen = smallSvg then [.openTag "svg".toList [⟨"a".toList, "é".toList⟩], .ended] else [.malformed]
  sha256 _ := 0x353613592d03dc6fa1dfdda49286dff4b9dae6313e6ce6dcc76cb48ffc51c8de
  toLowerCase := id

theorem smallTools_writes (seen : Text) (texts : List Text) :
    smallTools.writes seen texts = ([], seen ++ texts.flatten) := by
  induction texts generalizing seen with
  | nil => simp [ArtifactTools.writes]
  | cons text rest ih =>
    show ([] ++ (smallTools.writes (seen ++ text) rest).1, (smallTools.writes (seen ++ text) rest).2) = _
    rw [ih, List.flatten_cons, List.append_assoc]
    rfl

theorem smallTools_streams : smallTools.Streams := by
  intro texts
  simp [ArtifactTools.events, smallTools_writes]

/-- The file of that SVG. -/
def smallFile : ScannedFile where
  path := "svg/objects/math-000001.svg".toList
  info := ⟨true, 1, 1, 7, 13, 0, 0⟩
  content := [60, 115, 118, 103, 32, 97, 61, 34, 0xc3, 0xa9, 34, 47, 62]
  regular := ⟨rfl, rfl⟩
  sized := rfl

theorem readArtifactSinglePass_eq_small :
    (readArtifactSinglePass smallTools .svg smallFile.info smallFile.info
        [[60, 115, 118, 103, 32, 97, 61, 34, 0xc3], [0xa9, 34], [47, 62]] smallFile.info).map
        (fun validated => (⟨smallFile.path, .svg, smallFile.info.size, validated.sha256⟩ : ValidatedArtifact)) =
      validateMultiPass smallTools smallFile .svg ∧
    validateMultiPass smallTools smallFile .svg =
      .ok ⟨smallFile.path, .svg, 13, smallTools.sha256 smallFile.content⟩ :=
  ⟨readArtifactSinglePass_eq smallTools smallTools_streams smallFile .svg _ rfl, by decide +kernel⟩

end LatexRenderer.ArtifactValidator
