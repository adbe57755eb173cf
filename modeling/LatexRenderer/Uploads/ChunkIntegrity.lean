import LatexRenderer.Uploads.ChunkSteps

/-! # The integrity of chunked uploads

For every interleaving of the calls that write chunks and finalize an upload, crashes and stalls
included: the accepted chunks are a chain from zero to `upload_received_bytes`, no accepted chunk is ever
replaced, assembling gives exactly what was accepted, and only an archive of the declared size and digest
makes the source ready.
-/

namespace LatexRenderer

open Machine

/-- The finished content of the `.finalizing` file. -/
def FinalizerPhase.assembled? (size : Nat) : FinalizerPhase → Option Bytes
  | .assembling file => if size ≤ file.offset then some file.output else none
  | .verified assembled | .renewed assembled => assembled
  | _ => none

namespace ChunkUpload

variable {sha256 : Bytes → Sha256} {s t : ChunkUpload}

/-- An uninterrupted assembly of a received upload. -/
theorem Sound.assembleUploadChunks (sound : s.Sound sha256) (uploading : s.row.status = .uploading)
    (full : s.row.uploadReceivedBytes = s.row.size) :
    s.assembleUploadChunks = some (contents s.accepted) := by
  have chain : Chain 0 s.accepted s.row.size := full ▸ sound.chain
  refine (Cursor.Follows.start s.accepted).assemble chain (sound.live uploading).stored ?_
  intro chunk member
  have bounded := (sound.accepted chunk member).2
  have inside := chain.end_le member
  simp [chunkFits, bounded, inside]

/-- What a finalization has assembled while chunks may still be written elsewhere. -/
theorem Sound.assembled (sound : s.Sound sha256) (uploading : s.row.status = .uploading)
    {call : ChunkFinalizer} (member : call ∈ s.finalizers) {content : Bytes}
    (assembled : call.phase.assembled? s.row.size = some content) : content = contents s.accepted := by
  have holds := (sound.live uploading).finalizers call member
  cases phase : call.phase with
  | assembling file =>
    rw [phase] at holds assembled
    obtain ⟨finished, eq⟩ := (Option.ite_none_right_eq_some ..).mp assembled
    obtain ⟨full, follows⟩ := holds
    rw [← Option.some.inj eq]
    exact (follows.complete sound.chain (full ▸ finished)).2
  | verified kept | renewed kept =>
    rw [phase] at holds assembled
    cases kept with
    | none => cases assembled
    | some kept =>
      cases assembled
      exact holds.collected
  | _ =>
    rw [phase] at assembled
    cases assembled

/-- The archive of an upload that becomes ready is what was accepted, in size and digest as declared. -/
theorem Sound.complete_archive {leaseOwner : String} {now expiresAt : Timestamp} {paths : List String}
    (sound : s.Sound sha256) (completed : s.complete leaseOwner now expiresAt paths = some t) :
    t.archive = some (contents t.accepted) ∧ declared sha256 t.row (contents t.accepted) := by
  obtain ⟨row, ready, completed⟩ := Option.bind_eq_some_iff.mp completed
  obtain ⟨finalizers, changed, rfl⟩ := Option.map_eq_some_iff.mp completed
  obtain ⟨⟨held, _⟩, eq⟩ := (Option.ite_none_right_eq_some ..).mp ready
  obtain ⟨_, call, _, _, split, _, moved, _⟩ := update?_eq_some changed
  have calling : call ∈ s.finalizers := by
    rw [show s.finalizers = _ from split]
    simp
  obtain ⟨_, moved, _⟩ := Option.map_eq_some_iff.mp moved
  have holds := (sound.live held.1).finalizers call calling
  cases phase : call.phase with
  | promoted =>
    rw [phase] at holds
    obtain ⟨content, there, whole⟩ := holds
    rw [← Option.some.inj eq]
    exact ⟨there.trans (congrArg some whole.collected), whole.collected ▸ whole.declared⟩
  | _ =>
    rw [phase] at moved
    cases moved

end ChunkUpload

namespace ChunkAction

open ChunkUpload

variable {sha256 : Bytes → Sha256} {s t : ChunkUpload} {action : ChunkAction}

theorem updateWriter_frame {leaseOwner : String} {change : ChunkWriter → Option ChunkWriter}
    (updated : s.updateWriter leaseOwner change = some t) : t.accepted = s.accepted ∧ t.row = s.row := by
  obtain ⟨_, _, rfl⟩ := Option.map_eq_some_iff.mp updated
  exact ⟨rfl, rfl⟩

theorem updateFinalizer_frame {leaseOwner : String} {change : FinalizerPhase → Option FinalizerPhase}
    (updated : s.updateFinalizer leaseOwner change = some t) :
    t.accepted = s.accepted ∧ t.row = s.row := by
  obtain ⟨_, _, rfl⟩ := Option.map_eq_some_iff.mp updated
  exact ⟨rfl, rfl⟩

/-- What a step does to the accepted chunks, and how a source becomes ready. -/
theorem run_cases (ran : action.run sha256 s = some t) :
    (t.accepted = s.accepted ∧ (t.row.status = .ready → s.row.status = .ready)) ∨
    (∃ chunk, t.accepted = s.accepted ++ [chunk] ∧ t.row.status = .uploading) ∨
    ∃ leaseOwner now expiresAt paths, s.complete leaseOwner now expiresAt paths = some t ∧
      t.accepted = s.accepted := by
  have kept (accepted : t.accepted = s.accepted) (row : t.row = s.row) :
      t.accepted = s.accepted ∧ (t.row.status = .ready → s.row.status = .ready) :=
    ⟨accepted, by simp [row]⟩
  cases action with
  | prepareFiles =>
    obtain ⟨_, eq⟩ := (Option.ite_none_right_eq_some ..).mp ran
    rw [← Option.some.inj eq]
    exact .inl ⟨rfl, id⟩
  | startUpload =>
    obtain ⟨_, started⟩ := (Option.ite_none_right_eq_some ..).mp ran
    obtain ⟨row, moved, rfl⟩ := Option.map_eq_some_iff.mp started
    obtain ⟨_, moved⟩ := (Option.ite_none_right_eq_some ..).mp moved
    obtain ⟨_, eq⟩ := (Option.ite_none_right_eq_some ..).mp moved
    rw [← Option.some.inj eq]
    exact .inl ⟨rfl, nofun⟩
  | claimChunk | claimFinalize =>
    obtain ⟨_, claimed⟩ := (Option.ite_none_right_eq_some ..).mp ran
    obtain ⟨row, leased, rfl⟩ := Option.map_eq_some_iff.mp claimed
    obtain ⟨_, _, status⟩ := SourceRow.claimUploadLease_columns leased
    exact .inl ⟨rfl, fun ready => status ▸ ready⟩
  | readRow | inspect =>
    obtain ⟨accepted, row⟩ := updateWriter_frame ran
    exact .inl (kept accepted row)
  | writeUploadChunk =>
    obtain ⟨_, _, _, _, _, same, _⟩ := writeUploadChunk_eq_some ran
    exact .inl (kept (by rw [same]) (by rw [same]))
  | commitChunk =>
    obtain ⟨_, _, _, _, _, uploading, _, _, rfl⟩ := commitChunk_eq_some ran
    exact .inr (.inl ⟨_, rfl, uploading⟩)
  | releaseChunk leaseOwner =>
    obtain ⟨accepted, row⟩ := updateWriter_frame ran
    have status := (SourceRow.releaseUploadLease_columns leaseOwner s.row).2
    exact .inl ⟨accepted, fun ready => status.symm.trans ((congrArg SourceRow.status row).symm.trans ready)⟩
  | releaseFinalize leaseOwner =>
    have released : (s.releaseLease leaseOwner).updateFinalizer leaseOwner (fun _ => some .ended) =
      some t := ran
    obtain ⟨accepted, row⟩ := updateFinalizer_frame released
    have status := (SourceRow.releaseUploadLease_columns leaseOwner s.row).2
    exact .inl ⟨accepted, fun ready => status.symm.trans ((congrArg SourceRow.status row).symm.trans ready)⟩
  | readFinalize | copyNext | verify =>
    obtain ⟨_, _, rfl⟩ := Option.map_eq_some_iff.mp ran
    exact .inl ⟨rfl, id⟩
  | openArchive =>
    obtain ⟨_, _, opened⟩ := Option.bind_eq_some_iff.mp ran
    obtain ⟨accepted, row⟩ := updateFinalizer_frame opened
    exact .inl (kept accepted row)
  | renewLease =>
    obtain ⟨row, extended, renewed⟩ := Option.bind_eq_some_iff.mp ran
    obtain ⟨accepted, same⟩ := updateFinalizer_frame renewed
    have status := (SourceRow.extendUploadLease_columns extended).2
    exact .inl ⟨accepted, fun ready => status.symm.trans ((congrArg SourceRow.status same).symm.trans ready)⟩
  | promote =>
    obtain ⟨_, _, _, _, _, _, rfl⟩ := promote_eq_some ran
    exact .inl ⟨rfl, id⟩
  | complete leaseOwner now expiresAt paths =>
    refine .inr (.inr ⟨leaseOwner, now, expiresAt, paths, ran, ?_⟩)
    obtain ⟨row, _, completed⟩ := Option.bind_eq_some_iff.mp ran
    exact (updateFinalizer_frame completed).1
  | removeChunk | removeChunks | removeArchive =>
    obtain ⟨_, eq⟩ := (Option.ite_none_right_eq_some ..).mp ran
    rw [← Option.some.inj eq]
    exact .inl ⟨rfl, id⟩
  | source action =>
    obtain ⟨other, ran⟩ := (Option.ite_none_right_eq_some ..).mp ran
    obtain ⟨row, acted, rfl⟩ := Option.map_eq_some_iff.mp ran
    refine .inl ⟨rfl, fun ready => ?_⟩
    cases action with
    | endRetention =>
      obtain ⟨guarded, _⟩ := (Option.ite_none_right_eq_some ..).mp acted
      exact guarded.1
    | expireReservation | markDeleting | claimDeletion | finishDeletion | failDeletion =>
      obtain ⟨_, eq⟩ := (Option.ite_none_right_eq_some ..).mp acted
      rw [← Option.some.inj eq] at ready
      cases ready
    | _ => cases other

end ChunkAction

section Integrity

variable {sha256 : Bytes → Sha256} {s t : ChunkUpload} {actions : List ChunkAction}

theorem sound_of_begun (reached : Reachable (chunkMachine sha256) s) : s.Sound sha256 := by
  refine reached.induction ChunkUpload.Sound.begun ?_
  intro before action next _ ran sound
  exact ChunkAction.run_sound ran sound

/-- What was accepted stays accepted, in its place. -/
theorem accepted_prefix (run : Run (chunkMachine sha256) s actions t) : s.accepted <+: t.accepted := by
  refine run.relates (R := fun a b => a.accepted <+: b.accepted) (fun _ => List.prefix_rfl)
    List.IsPrefix.trans fun {before action next} ran => ?_
  rcases ChunkAction.run_cases ran with ⟨same, _⟩ | ⟨chunk, grown, _⟩ | ⟨_, _, _, _, _, same⟩
  · exact same ▸ List.prefix_rfl
  · exact grown ▸ List.prefix_append ..
  · exact same ▸ List.prefix_rfl

/-- The integrity of a chunked upload, for every run. The accepted chunks are a chain from zero to
`upload_received_bytes`, and a later state extends them. While the upload is under way each accepted
chunk has its file with its bytes, `assembleUploadChunks` gives their concatenation once all bytes are
received, and so does whatever a finalization has assembled. A source becomes ready only with this
concatenation as its archive, of the declared size and digest. -/
theorem chunked_upload_integrity (sha256 : Bytes → Sha256) {s t : ChunkUpload}
    {actions : List ChunkAction} (reached : Reachable (chunkMachine sha256) s)
    (run : Run (chunkMachine sha256) s actions t) :
    (Chain 0 t.accepted t.row.uploadReceivedBytes ∧ t.row.uploadReceivedBytes ≤ t.row.size) ∧
    s.accepted <+: t.accepted ∧
    (t.row.status = .uploading →
      (∀ chunk ∈ t.accepted, t.chunk? chunk.1 = some chunk.2) ∧
      (t.row.uploadReceivedBytes = t.row.size →
        t.assembleUploadChunks = some (contents t.accepted)) ∧
      ∀ call ∈ t.finalizers, ∀ content ∈ call.phase.assembled? t.row.size,
        content = contents t.accepted) ∧
    (∀ action next, (chunkMachine sha256).Step t action next → t.row.status ≠ .ready →
      next.row.status = .ready →
        next.archive = some (contents next.accepted) ∧
        ChunkUpload.declared sha256 next.row (contents next.accepted)) := by
  have sound := sound_of_begun (run.reachable reached)
  refine ⟨⟨sound.chain, sound.within⟩, accepted_prefix run, fun uploading => ⟨?_, ?_, ?_⟩, ?_⟩
  · exact (sound.live uploading).stored
  · exact sound.assembleUploadChunks uploading
  · exact fun call member content assembled => sound.assembled uploading member assembled
  · intro action next ran before ready
    rcases ChunkAction.run_cases ran with ⟨_, earlier⟩ | ⟨_, _, uploading⟩ | ⟨_, _, _, _, completed, _⟩
    · exact absurd (earlier ready) before
    · cases uploading.symm.trans ready
    · exact sound.complete_archive completed

/-- SHA-256 of the three bytes of `abc`, as far as the example needs it. -/
def exampleSha256 (content : Bytes) : Sha256 :=
  if content = [97, 98, 99] then
    0xba7816bf8f01cfea414140de5dae2223b00361a396177a9cb410ff61f20015ad
  else 0

def exampleReservation : SourceReservation where
  id := "source_1"
  ownerUserId := "user_1"
  size := 3
  sha256 := exampleSha256 [97, 98, 99]
  timestamp := 0
  expiresAt := 1000

/-- The first call writes its chunk and crashes before the commit; a retry adopts the file, a second chunk
follows, and the upload is finalized up to the promotion of the archive. -/
def exampleChunks : List ChunkAction :=
  [.prepareFiles, .startUpload 1,
    .claimChunk "user_1" "lease_1" 2 62 0 [97], .readRow "lease_1", .inspect "lease_1",
    .writeUploadChunk "lease_1",
    .claimChunk "user_1" "lease_2" 70 130 0 [97], .readRow "lease_2", .inspect "lease_2",
    .writeUploadChunk "lease_2", .commitChunk "lease_2" 71, .releaseChunk "lease_2",
    .claimChunk "user_1" "lease_3" 72 132 1 [98, 99], .readRow "lease_3", .inspect "lease_3",
    .writeUploadChunk "lease_3", .commitChunk "lease_3" 73, .releaseChunk "lease_3",
    .claimFinalize "user_1" "lease_4" 74 134, .readFinalize "lease_4", .openArchive "lease_4",
    .copyNext "lease_4", .copyNext "lease_4", .verify "lease_4", .renewLease "lease_4" 75 135,
    .promote "lease_4"]

/-- The upload of `abc` in two chunks, with a crash and a retry, becomes ready. -/
theorem chunked_upload_integrity_retried :
    ∃ t next : ChunkUpload, (chunkMachine exampleSha256).Step t (.complete "lease_4" 76 2000 []) next ∧
      t.accepted = [(0, [97]), (1, [98, 99])] ∧ next.row.status = .ready ∧
      next.archive = some (contents next.accepted) := by
  let complete := ChunkAction.complete "lease_4" 76 2000 []
  have replayed : (replay? (ChunkAction.run exampleSha256) { row := .insertReserved exampleReservation }
      exampleChunks).any (fun t => t.row.status == .uploading &&
        t.accepted == [(0, [97]), (1, [98, 99])] &&
        (complete.run exampleSha256 t).any fun next => next.row.status == .ready) = true := by decide
  obtain ⟨t, run, check⟩ : ∃ t, Run (chunkMachine exampleSha256) { row := .insertReserved exampleReservation }
    exampleChunks t ∧ _ := exists_run_of_replay? replayed
  simp only [Bool.and_eq_true, Option.any_eq_true, beq_iff_eq] at check
  obtain ⟨⟨uploading, accepted⟩, next, completed, ready⟩ := check
  have integrity := chunked_upload_integrity exampleSha256 (.init (.reserve exampleReservation (by decide))) run
  have archived := integrity.2.2.2 complete next completed (by simp [uploading]) ready
  exact ⟨t, next, completed, accepted, ready, archived.1⟩

end Integrity

end LatexRenderer
