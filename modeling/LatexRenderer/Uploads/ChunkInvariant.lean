import LatexRenderer.Model.Uploads.Chunks

/-! # The invariant of a chunked upload

While the upload is under way, the accepted chunks are a chain up to `upload_received_bytes`, each with
its file; a call that has written its chunk finds its bytes under its offset; and what a finalization has
copied is the beginning of the chain. Once the row has left `uploading` nothing more is accepted.
-/

namespace LatexRenderer

open Machine

namespace ChunkUpload

/-- All bytes were received, and this is what they make. -/
structure Whole (sha256 : Bytes → Sha256) (row : SourceRow) (accepted : List (Nat × Bytes))
    (content : Bytes) : Prop where
  received : row.uploadReceivedBytes = row.size
  collected : content = contents accepted
  declared : declared sha256 row content

/-- A call that has written its chunk finds it in its file. -/
def WriterSound (chunks : Option (List (Nat × Bytes))) (call : ChunkWriter) : Prop :=
  call.phase = .written → chunks.bind (·.lookup call.offset) = some call.bytes

/-- What a finalization may rely on in each phase. -/
def FinalizerSound (sha256 : Bytes → Sha256) (row : SourceRow) (archive : Option Bytes)
    (accepted : List (Nat × Bytes)) : FinalizerPhase → Prop
  | .leased _ | .ended => True
  | .read | .inPlace => row.uploadReceivedBytes = row.size
  | .assembling file => row.uploadReceivedBytes = row.size ∧ file.Follows accepted
  | .verified (some content) | .renewed (some content) => Whole sha256 row accepted content
  | .verified none | .renewed none | .promoted => ∃ content ∈ archive, Whole sha256 row accepted content
  | .completed => False

variable (sha256 : Bytes → Sha256) (s : ChunkUpload)

/-- While the upload is under way. -/
structure Live : Prop where
  stored : ∀ chunk ∈ s.accepted, s.chunk? chunk.1 = some chunk.2
  archive : ∀ content ∈ s.archive, content = [] ∨ Whole sha256 s.row s.accepted content
  writers : ∀ call ∈ s.writers, WriterSound s.chunks call
  finalizers : ∀ call ∈ s.finalizers, FinalizerSound sha256 s.row s.archive s.accepted call.phase

/-- The sizes of a chunk. -/
def ChunkSized (bytes : Bytes) : Prop :=
  bytes ≠ [] ∧ bytes.length ≤ sourceUploadChunkMaxBytes

/-- The invariant. -/
structure Sound : Prop where
  size : 1 ≤ s.row.size
  chain : Chain 0 s.accepted s.row.uploadReceivedBytes
  within : s.row.uploadReceivedBytes ≤ s.row.size
  accepted : ∀ chunk ∈ s.accepted, ChunkSized chunk.2
  writers : ∀ call ∈ s.writers, ChunkSized call.bytes
  completed : ∀ call ∈ s.finalizers, call.phase = .completed → s.row.status ∉ [.reserved, .uploading]
  reserved : s.row.status = .reserved → s.accepted = [] ∧ s.writers = [] ∧ s.finalizers = []
  live : s.row.status = .uploading → s.Live sha256

variable {sha256 : Bytes → Sha256} {s t : ChunkUpload}

theorem Sound.begun (begun : s.Begun) : s.Sound sha256 := by
  cases begun with
  | reserve input size =>
    exact ⟨size, rfl, Nat.zero_le _, nofun, nofun, nofun, fun _ => ⟨rfl, rfl, rfl⟩, nofun⟩

/-- The columns of the row that the invariant speaks about. -/
structure SameColumns (row next : SourceRow) : Prop where
  size : next.size = row.size
  sha256 : next.sha256 = row.sha256
  received : next.uploadReceivedBytes = row.uploadReceivedBytes

section Columns

variable {row next : SourceRow} {archive : Option Bytes} {accepted : List (Nat × Bytes)}

theorem Whole.of_columns {content : Bytes} (whole : Whole sha256 row accepted content)
    (same : SameColumns row next) : Whole sha256 next accepted content where
  received := by rw [same.received, same.size, whole.received]
  collected := whole.collected
  declared := by
    rw [ChunkUpload.declared, same.size, same.sha256]
    exact whole.declared

theorem FinalizerSound.of_columns {phase : FinalizerPhase}
    (sound : FinalizerSound sha256 row archive accepted phase) (same : SameColumns row next) :
    FinalizerSound sha256 next archive accepted phase := by
  have received (full : row.uploadReceivedBytes = row.size) :
      next.uploadReceivedBytes = next.size := by rw [same.received, same.size, full]
  match phase, sound with
  | .leased _, _ | .ended, _ => trivial
  | .read, full | .inPlace, full => exact received full
  | .assembling _, ⟨full, follows⟩ => exact ⟨received full, follows⟩
  | .verified (some _), whole | .renewed (some _), whole => exact Whole.of_columns whole same
  | .verified none, ⟨content, there, whole⟩ | .renewed none, ⟨content, there, whole⟩
  | .promoted, ⟨content, there, whole⟩ => exact ⟨content, there, whole.of_columns same⟩

end Columns

/-- A statement that touches only the lease columns. -/
theorem Sound.of_row {row : SourceRow} (sound : s.Sound sha256) (same : SameColumns s.row row)
    (status : row.status = s.row.status) : ({ s with row := row } : ChunkUpload).Sound sha256 where
  size := same.size ▸ sound.size
  chain := same.received ▸ sound.chain
  within := by
    show row.uploadReceivedBytes ≤ row.size
    rw [same.received, same.size]
    exact sound.within
  accepted := sound.accepted
  writers := sound.writers
  completed := fun call member done => status ▸ sound.completed call member done
  reserved := fun waiting => sound.reserved (status ▸ waiting)
  live := fun uploading =>
    have live := sound.live (status ▸ uploading)
    { stored := live.stored
      archive := fun content there => (live.archive content there).imp_right (·.of_columns same)
      writers := live.writers
      finalizers := fun call member => (live.finalizers call member).of_columns same }

/-- Once the row is neither reserved nor uploading, the files do not matter. -/
theorem Sound.settled (sound : s.Sound sha256) (size : 1 ≤ t.row.size)
    (received : t.row.uploadReceivedBytes = s.row.uploadReceivedBytes)
    (within : t.row.uploadReceivedBytes ≤ t.row.size) (accepted : t.accepted = s.accepted)
    (writers : t.writers = s.writers) (status : t.row.status ∉ [.reserved, .uploading]) :
    t.Sound sha256 where
  size := size
  chain := by
    rw [accepted, received]
    exact sound.chain
  within := within
  accepted := accepted ▸ sound.accepted
  writers := writers ▸ sound.writers
  completed := fun _ _ _ => status
  reserved := fun waiting => absurd (by simp [waiting]) status
  live := fun uploading => absurd (by simp [uploading]) status

theorem Sound.updateWriter {leaseOwner : String} {change : ChunkWriter → Option ChunkWriter}
    (sound : s.Sound sha256) (updated : s.updateWriter leaseOwner change = some t)
    (keep : ∀ {call next}, change call = some next → next.offset = call.offset ∧ next.bytes = call.bytes ∧
      (next.phase = .written → s.row.status = .uploading → s.chunk? call.offset = some call.bytes)) :
    t.Sound sha256 := by
  obtain ⟨writers, changed, rfl⟩ := Option.map_eq_some_iff.mp updated
  have some_writer : s.writers ≠ [] := by
    rintro none
    rw [none] at changed
    cases changed
  refine ⟨sound.size, sound.chain, sound.within, sound.accepted, ?_, sound.completed, ?_, ?_⟩
  · refine update?_forall changed (fun _ _ change sized => ?_) sound.writers
    rw [(keep change).2.1]
    exact sized
  · intro waiting
    exact absurd (sound.reserved waiting).2.1 some_writer
  · intro uploading
    have live := sound.live uploading
    refine ⟨live.stored, live.archive, ?_, live.finalizers⟩
    refine update?_forall (P := WriterSound s.chunks) changed (fun _ _ change _ => ?_) live.writers
    obtain ⟨offset, bytes, written⟩ := keep change
    intro phase
    rw [offset, bytes]
    exact written phase uploading

theorem Sound.updateFinalizer {leaseOwner : String} {change : FinalizerPhase → Option FinalizerPhase}
    (sound : s.Sound sha256) (updated : s.updateFinalizer leaseOwner change = some t)
    (keep : ∀ {phase next}, change phase = some next →
      (next = .completed → phase = .completed ∨ s.row.status ∉ [.reserved, .uploading]) ∧
      (s.Live sha256 → FinalizerSound sha256 s.row s.archive s.accepted phase →
        FinalizerSound sha256 s.row s.archive s.accepted next)) :
    t.Sound sha256 := by
  obtain ⟨finalizers, changed, rfl⟩ := Option.map_eq_some_iff.mp updated
  have some_finalizer : s.finalizers ≠ [] := by
    rintro none
    rw [none] at changed
    cases changed
  refine ⟨sound.size, sound.chain, sound.within, sound.accepted, sound.writers, ?_, ?_, ?_⟩
  · refine update?_forall (P := fun call : ChunkFinalizer =>
      call.phase = .completed → s.row.status ∉ [.reserved, .uploading]) changed ?_ sound.completed
    intro call next _ _ moved before done
    obtain ⟨phase, changed, rfl⟩ := Option.map_eq_some_iff.mp moved
    rcases (keep changed).1 done with earlier | status
    · exact before earlier
    · exact status
  · intro waiting
    exact absurd (sound.reserved waiting).2.2 some_finalizer
  · intro uploading
    have live := sound.live uploading
    refine ⟨live.stored, live.archive, live.writers, ?_⟩
    refine update?_forall (P := fun call : ChunkFinalizer =>
      FinalizerSound sha256 s.row s.archive s.accepted call.phase) changed ?_ live.finalizers
    intro call next _ _ moved before
    obtain ⟨phase, changed, rfl⟩ := Option.map_eq_some_iff.mp moved
    exact (keep changed).2 live before

end ChunkUpload

end LatexRenderer
