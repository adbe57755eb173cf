import LatexRenderer.Uploads.ChunkInvariant

/-! # Every step of a chunked upload keeps its invariant

The steps that matter are the link of a chunk's file, which creates or adopts it, the commit of the
offset, which the compare-and-set lets happen only at the end of the chain, and the promotion of a
verified archive.
-/

namespace LatexRenderer

open Machine

section Rows

variable {row next : SourceRow} {leaseOwner : String} {now leaseExpiresAt : Timestamp}

theorem SourceRow.claimUploadLease_columns {ownerUserId : String}
    (claimed : row.claimUploadLease ownerUserId leaseOwner now leaseExpiresAt = some next) :
    ChunkUpload.SameColumns row next ∧ row.status = .uploading ∧ next.status = row.status := by
  obtain ⟨guarded, eq⟩ := (Option.ite_none_right_eq_some ..).mp claimed
  rw [← Option.some.inj eq]
  exact ⟨⟨rfl, rfl, rfl⟩, guarded.2.1, rfl⟩

theorem SourceRow.extendUploadLease_columns
    (extended : row.extendUploadLease leaseOwner now leaseExpiresAt = some next) :
    ChunkUpload.SameColumns row next ∧ next.status = row.status := by
  obtain ⟨_, eq⟩ := (Option.ite_none_right_eq_some ..).mp extended
  rw [← Option.some.inj eq]
  exact ⟨⟨rfl, rfl, rfl⟩, rfl⟩

theorem SourceRow.releaseUploadLease_columns (leaseOwner : String) (row : SourceRow) :
    ChunkUpload.SameColumns row ((row.releaseUploadLease leaseOwner).getD row) ∧
      ((row.releaseUploadLease leaseOwner).getD row).status = row.status := by
  unfold releaseUploadLease
  split <;> exact ⟨⟨rfl, rfl, rfl⟩, rfl⟩

/-- The statements that are not the upload's own take the source out of the upload for good. -/
theorem SourceAction.otherSource_settles {action : SourceAction}
    (other : ChunkAction.otherSource action = true) (ran : action.run row = some next) :
    ChunkUpload.SameColumns row next ∧ next.status ∉ [.reserved, .uploading] := by
  cases action with
  | expireReservation | markDeleting | claimDeletion | finishDeletion | failDeletion =>
    obtain ⟨_, eq⟩ := (Option.ite_none_right_eq_some ..).mp ran
    rw [← Option.some.inj eq]
    exact ⟨⟨rfl, rfl, rfl⟩, by simp⟩
  | endRetention =>
    obtain ⟨guarded, eq⟩ := (Option.ite_none_right_eq_some ..).mp ran
    rw [← Option.some.inj eq]
    exact ⟨⟨rfl, rfl, rfl⟩, by simp [guarded.1]⟩
  | _ => cases other

end Rows

namespace ChunkUpload

variable {sha256 : Bytes → Sha256} {s t : ChunkUpload} {leaseOwner : String}

/-- A step of one writer, spelled out: the call that the owner finds moves on. -/
theorem updateWriter_eq_some {change : ChunkWriter → Option ChunkWriter}
    (updated : s.updateWriter leaseOwner change = some t) :
    ∃ before call after next, s.writers = before ++ call :: after ∧
      s.writers.find? (·.leaseOwner == leaseOwner) = some call ∧ change call = some next ∧
      t = { s with writers := before ++ next :: after } := by
  obtain ⟨writers, changed, rfl⟩ := Option.map_eq_some_iff.mp updated
  obtain ⟨before, call, after, next, split, found, moved, rfl⟩ := update?_eq_some changed
  exact ⟨before, call, after, next, split, found, moved, rfl⟩

/-- What `writeUploadChunk` did: the call's chunk has its file, and no file that was there changed. -/
theorem writeUploadChunk_eq_some (written : s.writeUploadChunk leaseOwner = some t) :
    ∃ before call after, s.writers = before ++ call :: after ∧ call.phase = .inspected ∧
      t = { s with
        writers := before ++ { call with phase := .written } :: after
        chunks := t.chunks } ∧
      t.chunk? call.offset = some call.bytes ∧
      ∀ {offset content}, s.chunk? offset = some content → t.chunk? offset = some content := by
  simp only [writeUploadChunk, Option.bind_eq_bind, Option.bind_eq_some_iff] at written
  obtain ⟨call, found, chunks, directory, next, updated, linked⟩ := written
  obtain ⟨before, _, after, _, split, found', moved, rfl⟩ := updateWriter_eq_some updated
  cases found.symm.trans found'
  obtain ⟨inspected, eq⟩ := (Option.ite_none_right_eq_some ..).mp moved
  refine ⟨before, call, after, split, inspected, ?_⟩
  rw [← Option.some.inj eq] at linked
  cases existing : chunks.lookup call.offset with
  | none =>
    simp only [existing, Option.some.injEq] at linked
    rw [← linked]
    refine ⟨rfl, by simp [chunk?], fun {offset content} there => ?_⟩
    have old : chunks.lookup offset = some content := by simpa [chunk?, directory] using there
    have apart : offset ≠ call.offset := by
      rintro rfl
      rw [existing] at old
      cases old
    simp [chunk?, List.lookup_cons, beq_false_of_ne apart, old]
  | some content =>
    simp only [existing, Option.ite_none_right_eq_some, Option.some.injEq] at linked
    obtain ⟨rfl, rfl⟩ := linked
    exact ⟨rfl, by simp [chunk?, directory, existing], id⟩

/-- What `commitUploadOffset` did: the call had written its chunk, the chunk goes on where the received
bytes end, and these now end behind it. -/
theorem commitChunk_eq_some {now : Timestamp} (committed : s.commitChunk leaseOwner now = some t) :
    ∃ before call after, s.writers = before ++ call :: after ∧ call.phase = .written ∧
      s.row.status = .uploading ∧ s.row.uploadReceivedBytes = call.offset ∧
      call.offset + call.bytes.length ≤ s.row.size ∧
      t = { s with
        writers := before ++ { call with phase := .ended } :: after
        row := { s.row with uploadReceivedBytes := call.offset + call.bytes.length, updatedAt := now }
        accepted := s.accepted ++ [(call.offset, call.bytes)] } := by
  simp only [commitChunk, Option.bind_eq_bind, Option.bind_eq_some_iff, Option.some.injEq] at committed
  obtain ⟨call, found, next, updated, row, set, rfl⟩ := committed
  obtain ⟨before, _, after, _, split, found', moved, rfl⟩ := updateWriter_eq_some updated
  cases found.symm.trans found'
  obtain ⟨written, eq⟩ := (Option.ite_none_right_eq_some ..).mp moved
  obtain ⟨⟨held, expected, within⟩, eq'⟩ := (Option.ite_none_right_eq_some ..).mp set
  rw [← Option.some.inj eq, ← Option.some.inj eq']
  exact ⟨before, call, after, split, written, held.1, expected, within, rfl⟩

/-- While bytes are missing no finalization has come beyond its claim. -/
theorem FinalizerSound.of_missing {row next : SourceRow} {archive : Option Bytes}
    {accepted more : List (Nat × Bytes)} {phase : FinalizerPhase}
    (missing : row.uploadReceivedBytes ≠ row.size) (sound : FinalizerSound sha256 row archive accepted phase) :
    FinalizerSound sha256 next archive more phase := by
  match phase, sound with
  | .leased _, _ | .ended, _ => trivial
  | .read, full | .inPlace, full => exact absurd full missing
  | .assembling _, sound => exact absurd sound.1 missing
  | .verified (some _), whole | .renewed (some _), whole => exact absurd whole.received missing
  | .verified none, ⟨_, _, whole⟩ | .renewed none, ⟨_, _, whole⟩ | .promoted, ⟨_, _, whole⟩ =>
    exact absurd whole.received missing

theorem Sound.writeUploadChunk (sound : s.Sound sha256)
    (written : s.writeUploadChunk leaseOwner = some t) : t.Sound sha256 := by
  obtain ⟨before, call, after, split, _, same, filed, kept⟩ := writeUploadChunk_eq_some written
  have calling : call ∈ s.writers := by simp [split]
  have others {other : ChunkWriter} (member : other ∈ t.writers) :
      other ∈ s.writers ∨ other = { call with phase := .written } := by
    rw [same] at member
    rcases List.mem_append.mp member with early | late
    · exact .inl (by simp [split, early])
    · rcases List.mem_cons.mp late with new | late
      · exact .inr new
      · exact .inl (by simp [split, late])
  have row : t.row = s.row := by rw [same]
  have accepted : t.accepted = s.accepted := by rw [same]
  refine ⟨row ▸ sound.size, ?_, row ▸ sound.within, accepted ▸ sound.accepted, ?_, ?_, ?_, ?_⟩
  · rw [accepted, row]
    exact sound.chain
  · intro other member
    rcases others member with old | rfl
    · exact sound.writers other old
    · exact sound.writers call calling
  · rw [same]
    exact sound.completed
  · intro waiting
    rw [row] at waiting
    simp [(sound.reserved waiting).2.1] at calling
  · intro uploading
    have live := sound.live (row ▸ uploading)
    refine ⟨?_, ?_, ?_, ?_⟩
    · intro chunk member
      exact kept (live.stored chunk (accepted ▸ member))
    · rw [same]
      exact live.archive
    · intro other member
      rcases others member with old | rfl
      · exact fun phase => kept (live.writers other old phase)
      · exact fun _ => filed
    · rw [same]
      exact live.finalizers

theorem Sound.commitChunk {now : Timestamp} (sound : s.Sound sha256)
    (committed : s.commitChunk leaseOwner now = some t) : t.Sound sha256 := by
  obtain ⟨before, call, after, split, written, uploading, expected, within, rfl⟩ :=
    commitChunk_eq_some committed
  have calling : call ∈ s.writers := by simp [split]
  have sized := sound.writers call calling
  have live := sound.live uploading
  have positive := List.length_pos_iff.mpr sized.1
  have missing : s.row.uploadReceivedBytes ≠ s.row.size := by omega
  have others {other : ChunkWriter}
      (member : other ∈ before ++ { call with phase := .ended } :: after) :
      other ∈ s.writers ∨ other = { call with phase := .ended } := by
    rcases List.mem_append.mp member with early | late
    · exact .inl (by simp [split, early])
    · rcases List.mem_cons.mp late with new | late
      · exact .inr new
      · exact .inl (by simp [split, late])
  have accepted {P : Nat × Bytes → Prop} (old : ∀ chunk ∈ s.accepted, P chunk)
      (new : P (call.offset, call.bytes)) :
      ∀ chunk ∈ s.accepted ++ [(call.offset, call.bytes)], P chunk := by
    intro chunk member
    rcases List.mem_append.mp member with before | last
    · exact old chunk before
    · rw [List.mem_singleton.mp last]
      exact new
  have chain : Chain 0 s.accepted call.offset := expected ▸ sound.chain
  refine ⟨sound.size, chain.snoc sized.1, within, accepted sound.accepted sized, ?_, sound.completed, ?_, ?_⟩
  · intro other member
    rcases others member with old | rfl
    · exact sound.writers other old
    · exact sized
  · intro waiting
    cases uploading.symm.trans waiting
  · intro _
    refine ⟨accepted live.stored (live.writers call calling written), ?_, ?_, ?_⟩
    · intro content there
      rcases live.archive content there with empty | whole
      · exact .inl empty
      · exact absurd whole.received missing
    · intro other member
      rcases others member with old | rfl
      · exact live.writers other old
      · exact nofun
    · exact fun other member => (live.finalizers other member).of_missing missing

/-- A call that starts joins under a lease of its own. -/
theorem Sound.claimChunk {ownerUserId : String} {now leaseExpiresAt : Timestamp} {offset : Nat}
    {bytes : Bytes} (sound : s.Sound sha256)
    (claimed : s.claimChunk ownerUserId leaseOwner now leaseExpiresAt offset bytes = some t) :
    t.Sound sha256 := by
  obtain ⟨⟨_, positive, bounded⟩, claimed⟩ := (Option.ite_none_right_eq_some ..).mp claimed
  obtain ⟨row, leased, rfl⟩ := Option.map_eq_some_iff.mp claimed
  obtain ⟨columns, uploading, status⟩ := SourceRow.claimUploadLease_columns leased
  have kept := sound.of_row columns status
  have sized : ChunkSized bytes := ⟨List.length_pos_iff.mp positive, bounded⟩
  refine ⟨kept.size, kept.chain, kept.within, kept.accepted, ?_, kept.completed, ?_, ?_⟩
  · intro call member
    rcases List.mem_append.mp member with old | new
    · exact kept.writers call old
    · rw [List.mem_singleton.mp new]
      exact sized
  · intro waiting
    cases (status.trans uploading).symm.trans waiting
  · intro still
    have live := kept.live still
    refine ⟨live.stored, live.archive, ?_, live.finalizers⟩
    intro call member
    rcases List.mem_append.mp member with old | new
    · exact live.writers call old
    · rw [List.mem_singleton.mp new]
      exact nofun

theorem Sound.claimFinalize {ownerUserId : String} {now leaseExpiresAt : Timestamp}
    (sound : s.Sound sha256)
    (claimed : s.claimFinalize ownerUserId leaseOwner now leaseExpiresAt = some t) : t.Sound sha256 := by
  obtain ⟨_, claimed⟩ := (Option.ite_none_right_eq_some ..).mp claimed
  obtain ⟨row, leased, rfl⟩ := Option.map_eq_some_iff.mp claimed
  obtain ⟨columns, uploading, status⟩ := SourceRow.claimUploadLease_columns leased
  have kept := sound.of_row columns status
  refine ⟨kept.size, kept.chain, kept.within, kept.accepted, kept.writers, ?_, ?_, ?_⟩
  · intro call member done
    rcases List.mem_append.mp member with old | new
    · exact kept.completed call old done
    · rw [List.mem_singleton.mp new] at done
      cases done
  · intro waiting
    cases (status.trans uploading).symm.trans waiting
  · intro still
    have live := kept.live still
    refine ⟨live.stored, live.archive, live.writers, ?_⟩
    intro call member
    rcases List.mem_append.mp member with old | new
    · exact live.finalizers call old
    · rw [List.mem_singleton.mp new]
      trivial

/-- The first steps: the reservation gets its files and becomes an upload. -/
theorem Sound.prepareFiles (sound : s.Sound sha256) (prepared : s.prepareFiles = some t) :
    t.Sound sha256 := by
  obtain ⟨⟨reserved, _⟩, eq⟩ := (Option.ite_none_right_eq_some ..).mp prepared
  rw [← Option.some.inj eq]
  refine ⟨sound.size, sound.chain, sound.within, sound.accepted, sound.writers, sound.completed,
    sound.reserved, fun uploading => ?_⟩
  cases reserved.symm.trans uploading

theorem Sound.startUpload {now : Timestamp} (sound : s.Sound sha256)
    (started : s.startUpload now = some t) : t.Sound sha256 := by
  obtain ⟨⟨empty, _⟩, started⟩ := (Option.ite_none_right_eq_some ..).mp started
  obtain ⟨row, moved, rfl⟩ := Option.map_eq_some_iff.mp started
  obtain ⟨_, moved⟩ := (Option.ite_none_right_eq_some ..).mp moved
  obtain ⟨waiting, eq⟩ := (Option.ite_none_right_eq_some ..).mp moved
  obtain ⟨accepted, writers, finalizers⟩ := sound.reserved (List.mem_singleton.mp waiting)
  rw [← Option.some.inj eq]
  refine ⟨sound.size, sound.chain, sound.within, sound.accepted, sound.writers, ?_, nofun, fun _ => ?_⟩
  · simp [finalizers]
  · refine ⟨by simp [accepted], ?_, by simp [writers], by simp [finalizers]⟩
    intro content there
    exact .inl (Option.some.inj (there.symm.trans empty))

/-- What a finalization goes through between its claim and the promotion. -/
theorem Sound.readFinalize (sound : s.Sound sha256) (read : s.readFinalize leaseOwner = some t) :
    t.Sound sha256 := by
  refine sound.updateFinalizer read fun {phase next} moved => ?_
  match phase with
  | .leased _ =>
    obtain ⟨⟨_, full⟩, eq⟩ := (Option.ite_none_right_eq_some ..).mp moved
    rw [← Option.some.inj eq]
    exact ⟨nofun, fun _ _ => full⟩

theorem Sound.openArchive (sound : s.Sound sha256) (opened : s.openArchive leaseOwner = some t) :
    t.Sound sha256 := by
  obtain ⟨archive, _, opened⟩ := Option.bind_eq_some_iff.mp opened
  refine sound.updateFinalizer opened fun {phase next} moved => ?_
  match phase with
  | .read =>
    simp only at moved
    split at moved
    · rw [← Option.some.inj moved]
      exact ⟨nofun, fun _ full => full⟩
    · obtain ⟨_, eq⟩ := (Option.ite_none_right_eq_some ..).mp moved
      rw [← Option.some.inj eq]
      exact ⟨nofun, fun _ full => ⟨full, .start _⟩⟩

theorem Sound.copyNext (sound : s.Sound sha256) (copied : s.copyNext leaseOwner = some t) :
    t.Sound sha256 := by
  refine sound.updateFinalizer copied fun {phase next} moved => ?_
  match phase with
  | .assembling file =>
    obtain ⟨unfinished, moved⟩ := (Option.ite_none_right_eq_some ..).mp moved
    obtain ⟨further, read, rfl⟩ := Option.map_eq_some_iff.mp moved
    refine ⟨nofun, fun live ⟨full, follows⟩ => ⟨full, ?_⟩⟩
    exact follows.advance sound.chain live.stored (full ▸ unfinished) read

theorem Sound.verify (sound : s.Sound sha256) (verified : s.verify sha256 leaseOwner = some t) :
    t.Sound sha256 := by
  refine sound.updateFinalizer verified fun {phase next} moved => ?_
  match phase with
  | .assembling file =>
    obtain ⟨⟨finished, declared⟩, eq⟩ := (Option.ite_none_right_eq_some ..).mp moved
    rw [← Option.some.inj eq]
    refine ⟨nofun, fun _ ⟨full, follows⟩ => ⟨full, ?_, declared⟩⟩
    exact (follows.complete sound.chain (full ▸ finished)).2
  | .inPlace =>
    obtain ⟨⟨content, there, declared⟩, eq⟩ := (Option.ite_none_right_eq_some ..).mp moved
    rw [← Option.some.inj eq]
    refine ⟨nofun, fun live _ => ⟨content, there, ?_⟩⟩
    rcases live.archive content there with empty | whole
    · have length := declared.1
      have size := sound.size
      rw [empty, List.length_nil] at length
      omega
    · exact whole

theorem Sound.renewLease {now leaseExpiresAt : Timestamp} (sound : s.Sound sha256)
    (renewed : s.renewLease leaseOwner now leaseExpiresAt = some t) : t.Sound sha256 := by
  obtain ⟨row, extended, renewed⟩ := Option.bind_eq_some_iff.mp renewed
  obtain ⟨columns, status⟩ := SourceRow.extendUploadLease_columns extended
  refine (sound.of_row columns status).updateFinalizer renewed fun {phase next} moved => ?_
  match phase with
  | .verified (some _) | .verified none =>
    cases moved
    exact ⟨nofun, fun _ => id⟩
  | .leased _ | .read | .assembling _ | .inPlace | .renewed _ | .promoted | .completed =>
    cases moved
    exact ⟨.inl, fun _ => id⟩

/-- What a promotion did: a renewed call's assembled archive, or the one in place, is the archive. -/
theorem promote_eq_some (promoted : s.promote leaseOwner = some t) :
    ∃ before call after assembled, s.finalizers = before ++ call :: after ∧
      call.phase = .renewed assembled ∧
      t = { s with
        finalizers := before ++ { call with phase := .promoted } :: after
        archive := assembled <|> s.archive } := by
  simp only [promote, Option.bind_eq_bind, Option.bind_eq_some_iff] at promoted
  obtain ⟨call, found, next, updated, placed⟩ := promoted
  obtain ⟨finalizers, changed, rfl⟩ := Option.map_eq_some_iff.mp updated
  obtain ⟨before, _, after, _, split, found', moved, rfl⟩ := update?_eq_some changed
  cases found.symm.trans found'
  obtain ⟨phase, moved, rfl⟩ := Option.map_eq_some_iff.mp moved
  refine ⟨before, call, after, ?_⟩
  cases renewed : call.phase with
  | renewed assembled =>
    rw [renewed] at moved placed
    cases moved
    refine ⟨assembled, split, rfl, ?_⟩
    cases assembled with
    | none => exact (Option.some.inj placed).symm
    | some content => exact (Option.some.inj placed).symm
  | _ =>
    rw [renewed] at moved
    cases moved

/-- With the whole archive in place every finalization may go on. -/
theorem FinalizerSound.of_archive {row : SourceRow} {archive next : Option Bytes}
    {accepted : List (Nat × Bytes)} {phase : FinalizerPhase} {content : Bytes}
    (sound : FinalizerSound sha256 row archive accepted phase) (there : content ∈ next)
    (whole : Whole sha256 row accepted content) : FinalizerSound sha256 row next accepted phase := by
  match phase, sound with
  | .leased _, _ | .ended, _ => trivial
  | .read, full | .inPlace, full => exact full
  | .assembling _, sound => exact sound
  | .verified (some _), assembled | .renewed (some _), assembled => exact assembled
  | .verified none, _ | .renewed none, _ | .promoted, _ => exact ⟨content, there, whole⟩

theorem Sound.promote (sound : s.Sound sha256) (promoted : s.promote leaseOwner = some t) :
    t.Sound sha256 := by
  obtain ⟨before, call, after, assembled, split, renewed, rfl⟩ := promote_eq_some promoted
  have calling : call ∈ s.finalizers := by simp [split]
  have others {other : ChunkFinalizer}
      (member : other ∈ before ++ { call with phase := .promoted } :: after) :
      other ∈ s.finalizers ∨ other = { call with phase := .promoted } := by
    rcases List.mem_append.mp member with early | late
    · exact .inl (by simp [split, early])
    · rcases List.mem_cons.mp late with new | late
      · exact .inr new
      · exact .inl (by simp [split, late])
  refine ⟨sound.size, sound.chain, sound.within, sound.accepted, sound.writers, ?_, ?_, ?_⟩
  · intro other member done
    rcases others member with old | rfl
    · exact sound.completed other old done
    · cases done
  · intro waiting
    simp [(sound.reserved waiting).2.2] at calling
  · intro uploading
    have live := sound.live uploading
    obtain ⟨content, there, whole⟩ : ∃ content ∈ (assembled <|> s.archive),
        Whole sha256 s.row s.accepted content := by
      have holds := live.finalizers call calling
      rw [renewed] at holds
      cases assembled with
      | none => exact holds
      | some content => exact ⟨content, rfl, holds⟩
    refine ⟨live.stored, ?_, live.writers, ?_⟩
    · intro other present
      rw [Option.some.inj (present.symm.trans there)]
      exact .inr whole
    · intro other member
      rcases others member with old | rfl
      · exact (live.finalizers other old).of_archive there whole
      · exact ⟨content, there, whole⟩

theorem Sound.complete {now expiresAt : Timestamp} {paths : List String} (sound : s.Sound sha256)
    (completed : s.complete leaseOwner now expiresAt paths = some t) : t.Sound sha256 := by
  obtain ⟨row, ready, completed⟩ := Option.bind_eq_some_iff.mp completed
  obtain ⟨finalizers, _, rfl⟩ := Option.map_eq_some_iff.mp completed
  obtain ⟨⟨_, full⟩, eq⟩ := (Option.ite_none_right_eq_some ..).mp ready
  rw [← Option.some.inj eq]
  exact sound.settled sound.size full.symm (Nat.le_refl _) rfl rfl (by simp)

theorem Sound.releaseLease (sound : s.Sound sha256) (leaseOwner : String) :
    (s.releaseLease leaseOwner).Sound sha256 := by
  obtain ⟨columns, status⟩ := SourceRow.releaseUploadLease_columns leaseOwner s.row
  exact sound.of_row columns status

/-- Files are only removed once the row has left the upload. -/
theorem Sound.removable (sound : s.Sound sha256) (removable : s.chunksRemovable) :
    s.row.status ∉ [.reserved, .uploading] := by
  rcases removable with deleting | ⟨call, member, completed⟩
  · simp [deleting]
  · refine sound.completed call member ?_
    cases phase : call.phase <;> simp_all

end ChunkUpload

theorem ChunkAction.run_sound {sha256 : Bytes → Sha256} {s t : ChunkUpload} {action : ChunkAction}
    (ran : action.run sha256 s = some t) (sound : s.Sound sha256) : t.Sound sha256 := by
  cases action with
  | prepareFiles => exact sound.prepareFiles ran
  | startUpload => exact sound.startUpload ran
  | claimChunk => exact sound.claimChunk ran
  | readRow =>
    refine sound.updateWriter ran fun {call next} moved => ?_
    unfold ChunkUpload.readRow at moved
    split at moved
    · obtain ⟨_, eq⟩ := (Option.ite_none_right_eq_some ..).mp moved
      rw [← Option.some.inj eq]
      exact ⟨rfl, rfl, nofun⟩
    · cases moved
  | inspect =>
    refine sound.updateWriter ran fun {call next} moved => ?_
    obtain ⟨_, eq⟩ := (Option.ite_none_right_eq_some ..).mp moved
    rw [← Option.some.inj eq]
    exact ⟨rfl, rfl, nofun⟩
  | writeUploadChunk => exact sound.writeUploadChunk ran
  | commitChunk => exact sound.commitChunk ran
  | releaseChunk leaseOwner =>
    refine (sound.releaseLease leaseOwner).updateWriter ran fun moved => ?_
    cases moved
    exact ⟨rfl, rfl, nofun⟩
  | claimFinalize => exact sound.claimFinalize ran
  | readFinalize => exact sound.readFinalize ran
  | openArchive => exact sound.openArchive ran
  | copyNext => exact sound.copyNext ran
  | verify => exact sound.verify ran
  | renewLease => exact sound.renewLease ran
  | promote => exact sound.promote ran
  | complete => exact sound.complete ran
  | releaseFinalize leaseOwner =>
    have released : (s.releaseLease leaseOwner).updateFinalizer leaseOwner (fun _ => some .ended) =
      some t := ran
    refine (sound.releaseLease leaseOwner).updateFinalizer released fun moved => ?_
    cases moved
    exact ⟨nofun, fun _ _ => trivial⟩
  | removeChunk | removeChunks =>
    obtain ⟨removable, eq⟩ := (Option.ite_none_right_eq_some ..).mp ran
    rw [← Option.some.inj eq]
    exact sound.settled sound.size rfl sound.within rfl rfl (sound.removable removable)
  | removeArchive =>
    obtain ⟨deleting, eq⟩ := (Option.ite_none_right_eq_some ..).mp ran
    rw [← Option.some.inj eq]
    exact sound.settled sound.size rfl sound.within rfl rfl (by simp [deleting])
  | source =>
    obtain ⟨other, ran⟩ := (Option.ite_none_right_eq_some ..).mp ran
    obtain ⟨row, acted, rfl⟩ := Option.map_eq_some_iff.mp ran
    obtain ⟨columns, status⟩ := SourceAction.otherSource_settles other acted
    have within : row.uploadReceivedBytes ≤ row.size := by
      rw [columns.received, columns.size]
      exact sound.within
    exact sound.settled (columns.size ▸ sound.size) columns.received within rfl rfl status

end LatexRenderer
