import LatexRenderer.Machine.Token
import LatexRenderer.Model.Uploads.Tickets

/-! # An upload ticket is a single-use token

The nonce of a ticket is a token, and the requests that present the ticket are its claimants. Each
statement on the nonce and each transaction refines the events of a `Custody`.
-/

namespace LatexRenderer

open Machine Custody

section Nonces

variable {row next : NonceRow} {owner : String} {now claimUntil : Timestamp}

/-- The nonce as a token. -/
def NonceRow.token (row : NonceRow) : Token String :=
  match row.state, row.claimOwner, row.claimExpiresAt with
  | .unused, _, _ | .released, _, _ => .free
  | .claimed, some owner, some expires => .held owner expires
  | .consumed, _, _ => .spent
  | _, _, _ => .void

/-- A claimed nonce names its owner and its expiry. -/
def NonceRow.Recorded (row : NonceRow) : Prop :=
  row.state = .claimed → row.claimOwner ≠ none ∧ row.claimExpiresAt ≠ none

theorem NonceRow.isFree.token (free : row.isFree) : row.token = .free := by
  simp only [isFree, List.mem_cons, List.not_mem_nil, or_false] at free
  rcases free with state | state <;> simp [NonceRow.token, state]

theorem NonceRow.Recorded.token (recorded : row.Recorded) (claimed : row.state = .claimed) :
    ∃ owner expires, row.claimOwner = some owner ∧ row.claimExpiresAt = some expires ∧
      row.token = .held owner expires := by
  obtain ⟨owned, expiring⟩ := recorded claimed
  obtain ⟨owner, named⟩ := Option.ne_none_iff_exists'.mp owned
  obtain ⟨expires, set⟩ := Option.ne_none_iff_exists'.mp expiring
  exact ⟨owner, expires, named, set, by simp [NonceRow.token, claimed, named, set]⟩

theorem NonceRow.claimedBy.token (claimed : row.claimedBy owner now) :
    ∃ expires, now < expires ∧ row.token = .held owner expires := by
  obtain ⟨state, named, expires, set, ahead⟩ := claimed
  exact ⟨expires, ahead, by simp [NonceRow.token, state, named, Option.mem_def.mp set]⟩

theorem NonceRow.claimed_of_token {expires : ℕ} (held : row.token = .held owner expires) :
    row.state = .claimed ∧ row.claimOwner = some owner := by
  unfold NonceRow.token at held
  split at held <;> simp_all

theorem NonceRow.claimNonce_token (claimed : row.claimNonce owner now claimUntil = some next) :
    row.token = .free ∧ next.token = .held owner claimUntil ∧ next.Recorded := by
  obtain ⟨⟨free, _⟩, eq⟩ := (Option.ite_none_right_eq_some ..).mp claimed
  rw [← Option.some.inj eq]
  exact ⟨free.token, rfl, fun _ => ⟨Option.some_ne_none _, Option.some_ne_none _⟩⟩

theorem NonceRow.extendNonceClaim_token (extended : row.extendNonceClaim owner now claimUntil = some next) :
    row.claimedBy owner now ∧ next.token = .held owner claimUntil ∧ next.Recorded := by
  obtain ⟨claimed, eq⟩ := (Option.ite_none_right_eq_some ..).mp extended
  rw [← Option.some.inj eq]
  refine ⟨claimed, by simp [NonceRow.token, claimed.1, claimed.2.1], fun _ => ⟨?_, Option.some_ne_none _⟩⟩
  simp [claimed.2.1]

theorem NonceRow.consumeNonce_token (consumed : row.consumeNonce owner now = some next) :
    row.claimedBy owner now ∧ next.token = .spent ∧ next.Recorded := by
  obtain ⟨claimed, eq⟩ := (Option.ite_none_right_eq_some ..).mp consumed
  rw [← Option.some.inj eq]
  exact ⟨claimed, rfl, nofun⟩

theorem NonceRow.releaseNonce_token (released : row.releaseNonce owner now = some next) :
    row.claimedBy owner now ∧ next.token = .free ∧ next.Recorded := by
  obtain ⟨claimed, eq⟩ := (Option.ite_none_right_eq_some ..).mp released
  rw [← Option.some.inj eq]
  exact ⟨claimed, rfl, nofun⟩

theorem NonceRow.recoverClaim_token (recorded : row.Recorded)
    (recovered : row.recoverClaim owner now = some next) :
    (∃ expires, row.token = .held owner expires ∧ expires ≤ now) ∧
      (next.token = .free ∨ next.token = .void) ∧ next.Recorded := by
  obtain ⟨⟨⟨claimed, past⟩, named⟩, eq⟩ := (Option.ite_none_right_eq_some ..).mp recovered
  obtain ⟨owner', expires, named', set, held⟩ := recorded.token claimed
  have same : owner' = owner := Option.some.inj (named'.symm.trans named)
  refine ⟨⟨expires, same ▸ held, past expires set⟩, ?_⟩
  rw [← Option.some.inj eq]
  by_cases alive : row.expiresAt > now <;> simp [NonceRow.token, NonceRow.Recorded, alive]

theorem NonceRow.expireNonce_token (expired : row.expireNonce now = some next) :
    row.token = .free ∧ next.token = .void ∧ next.Recorded := by
  obtain ⟨⟨_, free⟩, eq⟩ := (Option.ite_none_right_eq_some ..).mp expired
  rw [← Option.some.inj eq]
  exact ⟨free.token, rfl, nofun⟩

theorem NonceRow.deletable_token (deletable : row.deletable now = true) :
    ∀ owner expires, row.token ≠ .held owner expires := by
  intro owner expires held
  simp [NonceRow.deletable, (claimed_of_token held).1] at deletable

end Nonces

namespace UploadSystem

variable {s t : UploadSystem} {owner : String} {maxOutputBytes : Nat}

/-- The expiry a request takes its claim to have, until it is through. -/
def remembered (upload : Upload) : Option Timestamp :=
  if upload.ended then none else some upload.claimUntil

/-- The ticket as a token with its claimants. -/
def custody (s : UploadSystem) : Custody String where
  clock := s.clock
  token := s.nonce.elim .void NonceRow.token
  remembered owner := (s.uploads.find? (·.claimOwner == owner)).bind remembered
  drawn := { owner | ∃ upload ∈ s.uploads, upload.claimOwner = owner }

/-- A change of what a request remembers, which keeps its owner. -/
def Keeps (change : Upload → Option Upload) : Prop :=
  ∀ {upload new}, change upload = some new → new.claimOwner = upload.claimOwner

theorem keeps_extend (claimUntil : Timestamp) : Keeps (·.extend claimUntil) := by
  intro upload new changed
  obtain ⟨_, eq⟩ := (Option.ite_none_left_eq_some ..).mp changed
  rw [← Option.some.inj eq]

theorem keeps_lose : Keeps Upload.lose := by
  intro upload new changed
  obtain ⟨_, eq⟩ := (Option.ite_none_left_eq_some ..).mp changed
  rw [← Option.some.inj eq]

theorem keeps_finish : Keeps Upload.finish := by
  intro upload new changed
  obtain ⟨_, eq⟩ := (Option.ite_none_left_eq_some ..).mp changed
  rw [← Option.some.inj eq]

/-- Changing a request's memory changes nothing else, and no owner. -/
theorem updateUpload_frame {change : Upload → Option Upload} (keeps : Keeps change)
    (updated : s.updateUpload owner change = some t) :
    t = { s with uploads := t.uploads } ∧
      t.uploads.map (·.claimOwner) = s.uploads.map (·.claimOwner) := by
  obtain ⟨uploads, changed, rfl⟩ := Option.map_eq_some_iff.mp updated
  exact ⟨rfl, update?_map changed keeps⟩

/-- What changing a request's memory does to the custody. -/
theorem updateUpload_custody {change : Upload → Option Upload} (keeps : Keeps change)
    (updated : s.updateUpload owner change = some t) :
    owner ∈ s.custody.drawn ∧
      ∃ upload new, change upload = some new ∧ s.custody.remembered owner = remembered upload ∧
        t.custody = { s.custody with
          remembered := Function.update s.custody.remembered owner (remembered new) } := by
  obtain ⟨uploads, changed, rfl⟩ := Option.map_eq_some_iff.mp updated
  have owners := update?_map changed keeps
  obtain ⟨upload, new, found, changing, after⟩ := find?_update? changed fun change => by rw [keeps change]
  refine ⟨⟨upload, List.mem_of_find?_eq_some found, ?_⟩, upload, new, changing, by simp [custody, found], ?_⟩
  · exact eq_of_beq (List.find?_some found :)
  apply Custody.ext
  · rfl
  · rfl
  · funext other
    by_cases same : other = owner
    · subst same
      simp [custody, after]
    · have apart : uploads.find? (·.claimOwner == other) = s.uploads.find? (·.claimOwner == other) := by
        refine find?_update?_of_ne changed fun {row new} key changing => ?_
        have owned : row.claimOwner = owner := eq_of_beq key
        simp [keeps changing, owned, Ne.symm same]
      simp [custody, same, apart]
  · ext other
    have member : other ∈ uploads.map (·.claimOwner) ↔ other ∈ s.uploads.map (·.claimOwner) := by
      rw [owners]
    simpa [custody] using member

/-- A request that is through has given its claim up. -/
theorem finish_custody (ended : s.updateUpload owner Upload.finish = some t) :
    t.custody = s.custody.forget owner := by
  obtain ⟨_, upload, new, changed, _, after⟩ := updateUpload_custody keeps_finish ended
  obtain ⟨_, eq⟩ := (Option.ite_none_left_eq_some ..).mp changed
  rw [after, ← Option.some.inj eq]
  rfl

/-- A transaction that starts an upload claimed a free nonce under a new owner and moved the rows on. -/
theorem beginUpload_cases {now claimUntil timestamp : Timestamp}
    (began : s.beginUpload maxOutputBytes owner now claimUntil timestamp = some t) :
    (∀ upload ∈ s.uploads, upload.claimOwner ≠ owner) ∧ ∃ row nonce job source,
      s.nonce = some row ∧ row.claimNonce owner now claimUntil = some nonce ∧
      s.job.mapM (JobAction.run maxOutputBytes · (.uploadStarted timestamp)) = some job ∧
      s.source.mapM (·.transition [.reserved] .uploading timestamp {}) = some source ∧
      t = { s with
        nonce := some nonce, job := job, source := source,
        uploads := s.uploads ++ [{ claimOwner := owner, claimUntil := claimUntil }] } := by
  obtain ⟨fresh, began⟩ := (Option.ite_none_right_eq_some ..).mp began
  simp only [Option.bind_eq_bind, Option.bind_eq_some_iff, Option.some.injEq] at began
  obtain ⟨nonce, ⟨row, present, claimed⟩, job, started, source, moved, eq⟩ := began
  exact ⟨by simpa using fresh, row, nonce, job, source, present, claimed, started, moved, eq.symm⟩

/-- A heartbeat either moved the expiry of its claim or found it lost. -/
theorem extendClaim_cases {timestamp claimUntil : Timestamp}
    (extended : s.extendClaim owner timestamp claimUntil = some t) :
    (∃ row nonce, s.nonce = some row ∧ row.extendNonceClaim owner timestamp claimUntil = some nonce ∧
      ({ s with nonce := some nonce } : UploadSystem).updateUpload owner (·.extend claimUntil) = some t) ∨
    (s.nonce.bind (·.extendNonceClaim owner timestamp claimUntil) = none ∧
      s.updateUpload owner Upload.lose = some t) := by
  unfold extendClaim at extended
  split at extended
  next nonce found =>
    obtain ⟨row, present, moved⟩ := Option.bind_eq_some_iff.mp found
    exact .inl ⟨row, nonce, present, moved, extended⟩
  next missing => exact .inr ⟨missing, extended⟩

/-- A transaction that ends an upload consumed the nonce and moved the rows on. -/
theorem finishUpload_cases {now timestamp expiresAt : Timestamp} {paths : List String}
    (finished : s.finishUpload maxOutputBytes owner now timestamp expiresAt paths = some t) :
    ∃ ended row nonce job source, s.updateUpload owner Upload.finish = some ended ∧
      s.nonce = some row ∧ row.consumeNonce owner now = some nonce ∧
      s.source.mapM (·.transition [.uploading] .ready timestamp
        { uploadedAt := some timestamp, expiresAt := some expiresAt, paths := some paths }) =
          some source ∧
      s.job.mapM (JobAction.run maxOutputBytes · (.uploadFinished timestamp)) = some job ∧
      t = { ended with nonce := some nonce, job := job, source := source } := by
  simp only [finishUpload, Option.bind_eq_bind, Option.bind_eq_some_iff, Option.some.injEq] at finished
  obtain ⟨ended, through, nonce, ⟨row, present, consumed⟩, source, moved, job, queued, eq⟩ := finished
  exact ⟨ended, row, nonce, job, source, through, present, consumed, moved, queued, eq.symm⟩

/-- A failed upload gave the rows back if it could release the nonce, and else nothing. -/
theorem releaseUpload_cases {timestamp : Timestamp}
    (released : s.releaseUpload maxOutputBytes owner timestamp = some t) :
    ∃ ended, s.updateUpload owner Upload.finish = some ended ∧
      ((∃ row nonce, s.nonce = some row ∧ row.releaseNonce owner timestamp = some nonce ∧
        t = ({ ended with nonce := some nonce } : UploadSystem).restoreRows maxOutputBytes timestamp) ∨
      (s.nonce.bind (·.releaseNonce owner timestamp) = none ∧ t = ended)) := by
  simp only [releaseUpload, Option.bind_eq_bind, Option.bind_eq_some_iff] at released
  obtain ⟨ended, through, released⟩ := released
  refine ⟨ended, through, ?_⟩
  split at released
  next nonce found =>
    obtain ⟨row, present, moved⟩ := Option.bind_eq_some_iff.mp found
    exact .inl ⟨row, nonce, present, moved, (Option.some.inj released).symm⟩
  next missing => exact .inr ⟨missing, (Option.some.inj released).symm⟩

/-- A recovery released a stale claim and gave the rows back. -/
theorem recoverStaleUpload_cases {timestamp : Timestamp}
    (recovered : s.recoverStaleUpload maxOutputBytes owner timestamp = some t) :
    ∃ row nonce, s.nonce = some row ∧ row.recoverClaim owner timestamp = some nonce ∧
      t = ({ s with nonce := some nonce } : UploadSystem).restoreRows maxOutputBytes timestamp := by
  simp only [recoverStaleUpload, Option.bind_eq_bind, Option.bind_eq_some_iff, Option.some.injEq]
    at recovered
  obtain ⟨nonce, ⟨row, present, released⟩, eq⟩ := recovered
  exact ⟨row, nonce, present, released, eq.symm⟩

theorem beginUpload_custody {now claimUntil timestamp : Timestamp}
    (began : s.beginUpload maxOutputBytes owner now claimUntil timestamp = some t) :
    Step s.custody (.claim owner) t.custody := by
  obtain ⟨fresh, row, nonce, job, source, present, claimed, _, _, rfl⟩ := beginUpload_cases began
  obtain ⟨free, held, _⟩ := NonceRow.claimNonce_token claimed
  have absent : s.uploads.find? (·.claimOwner == owner) = none := by
    simpa using fresh
  have idle : s.custody.token = .free := by simp [custody, present, free]
  have unknown : owner ∉ s.custody.drawn := by
    rintro ⟨upload, member, same⟩
    exact fresh upload member same
  have granted := Step.claim idle unknown claimUntil
  convert granted using 1
  apply Custody.ext
  · rfl
  · exact held
  · funext other
    by_cases same : other = owner
    · subst same
      simp [custody, grant, absent, remembered]
    · have apart : ¬ owner = other := fun eq => same eq.symm
      simp [custody, grant, same, apart]
  · ext other
    constructor
    · rintro ⟨upload, member, rfl⟩
      rcases List.mem_append.mp member with before | new
      · exact .inr ⟨upload, before, rfl⟩
      · exact .inl (by rw [List.mem_singleton.mp new])
    · rintro (rfl | ⟨upload, before, rfl⟩)
      · exact ⟨_, List.mem_append_right _ List.mem_cons_self, rfl⟩
      · exact ⟨upload, List.mem_append_left _ before, rfl⟩

/-- The holder of a running claim, as the custody sees it. -/
theorem custody_heldBy {row : NonceRow} {now : Timestamp} (present : s.nonce = some row)
    (claimed : row.claimedBy owner now) : s.custody.heldBy owner := by
  obtain ⟨expires, _, held⟩ := claimed.token
  exact ⟨expires, by simp [custody, present, held]⟩

theorem extendClaim_custody {timestamp claimUntil : Timestamp}
    (extended : s.extendClaim owner timestamp claimUntil = some t) :
    Step s.custody (.extend owner) t.custody ∨ t.custody = s.custody := by
  rcases extendClaim_cases extended with ⟨row, nonce, present, moved, updated⟩ | ⟨_, updated⟩
  · obtain ⟨claimed, held, _⟩ := NonceRow.extendNonceClaim_token moved
    obtain ⟨known, upload, new, changed, _, after⟩ := updateUpload_custody (keeps_extend _) updated
    obtain ⟨going, eq⟩ := (Option.ite_none_left_eq_some ..).mp changed
    have remembers : remembered new = some claimUntil := by
      simp only [Bool.or_eq_true, not_or, Bool.not_eq_true] at going
      rw [← Option.some.inj eq, remembered, going.2]
      rfl
    refine .inl ?_
    have granted := Step.extend (custody_heldBy present claimed) claimUntil
    convert granted using 1
    rw [after, remembers]
    exact Custody.ext rfl held rfl (Set.insert_eq_of_mem known).symm
  · obtain ⟨_, upload, new, changed, before, after⟩ := updateUpload_custody keeps_lose updated
    obtain ⟨_, eq⟩ := (Option.ite_none_left_eq_some ..).mp changed
    have keeps : remembered new = s.custody.remembered owner := by
      rw [before, ← Option.some.inj eq]
      rfl
    rw [after, keeps, Function.update_eq_self]
    exact .inr rfl

theorem finishUpload_custody {now timestamp expiresAt : Timestamp} {paths : List String}
    (finished : s.finishUpload maxOutputBytes owner now timestamp expiresAt paths = some t) :
    Step s.custody (.spend owner) t.custody := by
  obtain ⟨ended, row, nonce, job, source, through, present, consumed, _, _, rfl⟩ :=
    finishUpload_cases finished
  obtain ⟨claimed, spent, _⟩ := NonceRow.consumeNonce_token consumed
  have spends := Step.spend (custody_heldBy present claimed)
  rw [← finish_custody through, ← spent] at spends
  exact spends

theorem releaseUpload_custody {timestamp : Timestamp}
    (released : s.releaseUpload maxOutputBytes owner timestamp = some t) :
    Step s.custody (.release owner) t.custody ∨ Step s.custody (.abandon owner) t.custody := by
  obtain ⟨ended, through, ⟨row, nonce, present, moved, rfl⟩ | ⟨_, rfl⟩⟩ := releaseUpload_cases released
  · obtain ⟨claimed, free, _⟩ := NonceRow.releaseNonce_token moved
    have releases := Step.release (custody_heldBy present claimed)
    rw [← finish_custody through, ← free] at releases
    exact .inl releases
  · rw [finish_custody through]
    exact .inr (.abandon owner)

/-- Every claimed nonce names its owner and its expiry. -/
def Recorded (s : UploadSystem) : Prop :=
  ∀ row ∈ s.nonce, row.Recorded

theorem recoverStaleUpload_custody {timestamp : Timestamp} (recorded : s.Recorded)
    (past : timestamp ≤ s.clock)
    (recovered : s.recoverStaleUpload maxOutputBytes owner timestamp = some t) :
    Step s.custody .recover t.custody := by
  obtain ⟨row, nonce, present, released, rfl⟩ := recoverStaleUpload_cases recovered
  obtain ⟨⟨expires, held, stale⟩, after, _⟩ := NonceRow.recoverClaim_token (recorded row present) released
  have holding : s.custody.token = .held owner expires := by simp [custody, present, held]
  exact .recover holding (Nat.le_trans stale past) after

/-- No request holds the ticket of a nonce that is free, and none that of a deleted one. -/
theorem not_heldBy {row : NonceRow} (present : s.nonce = some row)
    (idle : ∀ owner expires, row.token ≠ .held owner expires) (owner : String) :
    ¬ s.custody.heldBy owner := by
  rintro ⟨expires, held⟩
  exact idle owner expires (by simpa [custody, present] using held)

end UploadSystem

/-- The events a step may be, where `none` leaves the custody as it is. -/
def UploadAction.events : UploadAction → List (Option (TokenEvent String))
  | .beginUpload owner .. => [some (.claim owner)]
  | .extendClaim owner .. => [some (.extend owner), none]
  | .finishUpload owner .. => [some (.spend owner)]
  | .releaseUpload owner _ => [some (.release owner), some (.abandon owner)]
  | .recoverStaleUpload .. => [some .recover]
  | .expireNonce _ | .deleteNonce _ => [some .retire]
  | .advance _ => [some .tick]
  | .expireJob .. | .expireSource _ | .job _ | .source _ => [none]

/-- Every step on a ticket is one of its events. -/
theorem UploadAction.step_custody {s t : UploadSystem} {maxOutputBytes : Nat} {action : UploadAction}
    (recorded : s.Recorded) (taken : action.step maxOutputBytes s = some t) :
    ∃ event ∈ action.events, Custody.Moves s.custody event t.custody := by
  obtain ⟨past, ran⟩ := (Option.ite_none_right_eq_some ..).mp taken
  cases action with
  | beginUpload => exact ⟨_, List.mem_cons_self, UploadSystem.beginUpload_custody ran⟩
  | extendClaim =>
    rcases UploadSystem.extendClaim_custody ran with moved | same
    · exact ⟨_, List.mem_cons_self, moved⟩
    · exact ⟨none, by simp [events], same⟩
  | finishUpload => exact ⟨_, List.mem_cons_self, UploadSystem.finishUpload_custody ran⟩
  | releaseUpload owner =>
    rcases UploadSystem.releaseUpload_custody ran with moved | moved
    · exact ⟨_, List.mem_cons_self, moved⟩
    · exact ⟨some (.abandon owner), by simp [events], moved⟩
  | recoverStaleUpload =>
    exact ⟨_, List.mem_cons_self, UploadSystem.recoverStaleUpload_custody recorded (past _ rfl) ran⟩
  | expireNonce =>
    simp only [run, Option.bind_eq_bind, Option.bind_eq_some_iff, Option.some.injEq] at ran
    obtain ⟨nonce, ⟨row, present, expired⟩, rfl⟩ := ran
    obtain ⟨free, void, _⟩ := NonceRow.expireNonce_token expired
    have retires := Step.retire (UploadSystem.not_heldBy present (by simp [free]))
    rw [← void] at retires
    exact ⟨_, List.mem_cons_self, retires⟩
  | deleteNonce =>
    obtain ⟨gone, eq⟩ := (Option.ite_none_right_eq_some ..).mp ran
    obtain ⟨row, present, deletable⟩ := (Option.any_eq_true ..).mp gone
    rw [← Option.some.inj eq]
    exact ⟨_, List.mem_cons_self,
      Step.retire (UploadSystem.not_heldBy present (NonceRow.deletable_token deletable))⟩
  | advance =>
    obtain ⟨later, eq⟩ := (Option.ite_none_right_eq_some ..).mp ran
    rw [← Option.some.inj eq]
    exact ⟨_, List.mem_cons_self, Step.tick (s := s.custody) later⟩
  | expireJob | expireSource =>
    simp only [run, Option.bind_eq_bind, Option.bind_eq_some_iff, Option.some.injEq] at ran
    obtain ⟨_, _, rfl⟩ := ran
    exact ⟨none, List.mem_cons_self, rfl⟩
  | job | source =>
    simp only [run, Option.bind_eq_bind, Option.ite_none_right_eq_some, Option.bind_eq_some_iff,
      Option.some.injEq] at ran
    obtain ⟨_, _, _, rfl⟩ := ran
    exact ⟨none, List.mem_cons_self, rfl⟩

end LatexRenderer
