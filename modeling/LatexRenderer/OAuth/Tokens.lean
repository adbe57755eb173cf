import LatexRenderer.OAuth.Rows

/-! # The token rows under the statements of the service

What the issue, the consumption, the revocation and the deletion of tokens keep of the invariant on the
token rows, and of the fact that a pair without a row belongs to a dead family.
-/

namespace LatexRenderer

open Machine

section Tokens

variable {drawn : List String} {granted : List Grant} {families rest : List TokenFamilyRow}
  {tokens next : List TokenRow} {new : Grant}

theorem TokensSound.nil (families : List TokenFamilyRow) : TokensSound [] families [] := by
  constructor <;> simp

theorem TokensSound.named (sound : TokensSound granted families tokens)
    (history : GrantHistory drawn granted) {row : TokenRow} (member : row ∈ tokens) :
    row.tokenHash ∈ drawn ∧ row.familyId ∈ drawn := by
  obtain ⟨grant, present, family, _, kind⟩ := sound.carries row member
  have names := history.named grant present
  rw [family]
  refine ⟨?_, names _ (by simp [Grant.names])⟩
  rcases kind with ⟨_, hash⟩ | ⟨_, hash⟩ <;> rw [hash] <;> exact names _ (by simp [Grant.names])

theorem TokensSound.subset (sound : TokensSound granted families tokens)
    (fewer : List.Sublist next tokens) : TokensSound granted families next where
  distinct := sound.distinct.sublist (fewer.map _)
  carries row member := sound.carries row (fewer.subset member)
  used row member := sound.used row (fewer.subset member)
  revoked row member := sound.revoked row (fewer.subset member)
  outlives row member := sound.outlives row (fewer.subset member)

theorem TokensSound.dropFamilies (sound : TokensSound granted families tokens)
    (fewer : ∀ family ∈ rest, family ∈ families) : TokensSound granted rest tokens :=
  { sound with
    revoked := fun row member set family present => sound.revoked row member set family (fewer family present)
    outlives := fun row member refresh family present =>
      sound.outlives row member refresh family (fewer family present) }

/-- A family that is new to the random source has no token yet. -/
theorem TokensSound.insertFamily (sound : TokensSound granted families tokens)
    (history : GrantHistory drawn granted) {family : TokenFamilyRow} (fresh : family.id ∉ drawn) :
    TokensSound granted (families ++ [family]) tokens := by
  have apart : ∀ row ∈ tokens, ∀ other ∈ families ++ [family], other.id = row.familyId →
      other ∈ families := by
    intro row member other present same
    rcases List.mem_append.mp present with before | added
    · exact before
    · obtain rfl := List.mem_singleton.mp added
      exact absurd (same ▸ (sound.named history member).2) fresh
  exact { sound with
    revoked := fun row member set other present same =>
      sound.revoked row member set other (apart row member other present same) same
    outlives := fun row member refresh other present same =>
      sound.outlives row member refresh other (apart row member other present same) same }

theorem TokenRow.revoke_columns (id : String) (timestamp : Timestamp) (row : TokenRow) :
    (row.revoke id timestamp).tokenHash = row.tokenHash ∧
    (row.revoke id timestamp).tokenType = row.tokenType ∧
    (row.revoke id timestamp).familyId = row.familyId ∧
    (row.revoke id timestamp).sequence = row.sequence ∧
    (row.revoke id timestamp).usedAt = row.usedAt ∧
    (row.revoke id timestamp).expiresAt = row.expiresAt ∧
    ((row.revoke id timestamp).revokedAt.isSome → row.familyId = id ∨ row.revokedAt.isSome) := by
  unfold revoke
  split
  · exact ⟨rfl, rfl, rfl, rfl, rfl, rfl, fun _ => .inl ‹_›⟩
  · exact ⟨rfl, rfl, rfl, rfl, rfl, rfl, .inr⟩

/-- `revokeFamily` revokes the family together with its tokens. -/
theorem TokensSound.revoke (sound : TokensSound granted families tokens) (id : String)
    (timestamp : Timestamp) :
    TokensSound granted (families.map (TokenFamilyRow.revoke id timestamp))
      (tokens.map (TokenRow.revoke id timestamp)) := by
  constructor
  case distinct =>
    rw [map_map_column fun row => (TokenRow.revoke_columns id timestamp row).1]
    exact sound.distinct
  all_goals
    intro row member
    obtain ⟨old, present, rfl⟩ := List.mem_map.mp member
    obtain ⟨hash, kind, familyId, number, used, expires, set⟩ := TokenRow.revoke_columns id timestamp old
  case carries =>
    obtain ⟨grant, inHistory, carried⟩ := sound.carries old present
    refine ⟨grant, inHistory, ?_⟩
    rw [TokenRow.Carries, hash, kind, familyId, number]
    exact carried
  case used =>
    rw [hash, kind, used]
    exact sound.used old present
  case revoked =>
    intro revoked family inFamilies same
    obtain ⟨origin, before, rfl⟩ := List.mem_map.mp inFamilies
    rw [TokenFamilyRow.revoke_id, familyId] at same
    rcases set revoked with mine | earlier
    · exact TokenFamilyRow.revoke_isSome (.inl (same.trans mine))
    · exact TokenFamilyRow.revoke_isSome (.inr (sound.revoked old present earlier origin before same))
  case outlives =>
    intro refresh family inFamilies same
    obtain ⟨origin, before, rfl⟩ := List.mem_map.mp inFamilies
    rw [TokenFamilyRow.revoke_id, familyId] at same
    rw [TokenFamilyRow.revoke_expiresAt, expires]
    exact sound.outlives old present (kind ▸ refresh) origin before same

/-- The trade of a code leaves the tokens alone. -/
theorem TokensSound.trade (sound : TokensSound granted families tokens) {hash : String}
    (origin : new.origin = .code hash) : TokensSound (granted ++ [new]) families tokens :=
  { sound with
    carries := fun row member =>
      let ⟨grant, present, carried⟩ := sound.carries row member
      ⟨grant, List.mem_append_left _ present, carried⟩
    used := fun row member refresh => by
      rw [consumedAt_append_of_ne (by simp [origin])]
      exact sound.used row member refresh }

/-- What `consumeRefresh` finds and what it leaves. -/
theorem TokenRow.consumeRefresh_eq_some {timestamp : Timestamp} {row after : TokenRow}
    (consumed : row.consumeRefresh timestamp = some after) :
    row.tokenType = .refresh ∧ row.usedAt = none ∧ row.revokedAt = none ∧ row.expiresAt > timestamp ∧
      after = { row with usedAt := some timestamp } := by
  obtain ⟨⟨kind, unused, unrevoked, live⟩, eq⟩ := (Option.ite_none_right_eq_some ..).mp consumed
  exact ⟨kind, unused, unrevoked, live, (Option.some.inj eq).symm⟩

/-- A consumed refresh token was not traded before, and is marked as the trade that follows. -/
theorem TokensSound.consume (sound : TokensSound granted families tokens) (new : Grant) {hash : String}
    (updated : update? (·.tokenHash == hash) (TokenRow.consumeRefresh new.timestamp) tokens = some next)
    (origin : new.origin = .refresh hash) :
    consumedAt granted new.origin = none ∧ TokensSound (granted ++ [new]) families next ∧
      (∀ row ∈ tokens, ∃ kept ∈ next, kept.tokenType = row.tokenType ∧ kept.tokenHash = row.tokenHash) ∧
      ∀ row ∈ next, ∃ old ∈ tokens, old.tokenHash = row.tokenHash := by
  obtain ⟨row, used, present, rfl, consumed, mem⟩ := update?_of_nodup updated sound.distinct
  obtain ⟨kind, unused, unrevoked, live, rfl⟩ := TokenRow.consumeRefresh_eq_some consumed
  have untraded : consumedAt granted new.origin = none := by
    rw [origin, ← sound.used row present kind, unused]
  have column : next.map (·.tokenHash) = tokens.map (·.tokenHash) :=
    update?_map updated fun consumed => by
      obtain ⟨_, _, _, _, rfl⟩ := TokenRow.consumeRefresh_eq_some consumed
      rfl
  refine ⟨untraded, ?_, ?_, ?_⟩
  · constructor
    case distinct => exact column ▸ sound.distinct
    case carries =>
      intro other member
      rcases (mem other).mp member with rfl | ⟨before, _⟩
      · obtain ⟨grant, inHistory, carried⟩ := sound.carries row present
        exact ⟨grant, List.mem_append_left _ inHistory, carried⟩
      · obtain ⟨grant, inHistory, carried⟩ := sound.carries other before
        exact ⟨grant, List.mem_append_left _ inHistory, carried⟩
    case used =>
      intro other member refresh
      rcases (mem other).mp member with rfl | ⟨before, apart⟩
      · rw [← origin, consumedAt_append_self untraded]
      · rw [consumedAt_append_of_ne (by simpa [origin] using fun same => apart same.symm)]
        exact sound.used other before refresh
    case revoked =>
      intro other member set
      rcases (mem other).mp member with rfl | ⟨before, _⟩
      · exact sound.revoked row present set
      · exact sound.revoked other before set
    case outlives =>
      intro other member refresh
      rcases (mem other).mp member with rfl | ⟨before, _⟩
      · exact sound.outlives row present refresh
      · exact sound.outlives other before refresh
  · intro other before
    by_cases same : other.tokenHash = row.tokenHash
    · obtain rfl : other = row := List.inj_on_of_nodup_map sound.distinct before present same
      exact ⟨_, (mem _).mpr (.inl rfl), rfl, rfl⟩
    · exact ⟨other, (mem other).mpr (.inr ⟨before, same⟩), rfl, rfl⟩
  · intro other member
    rcases (mem other).mp member with rfl | ⟨before, _⟩
    · exact ⟨row, present, rfl⟩
    · exact ⟨other, before, rfl⟩

/-- The two rows of a new pair join the rows of the earlier ones. -/
theorem TokensSound.issue (sound : TokensSound granted families tokens) {draw : TokenDraw}
    {familyId : String} {sequence : Nat} {timestamp : Timestamp} {grant : Grant} (present : grant ∈ granted)
    (issued : grant.familyId = familyId ∧ grant.sequence = sequence ∧
      grant.accessToken = draw.accessToken ∧ grant.refreshToken = draw.refreshToken)
    (apart : draw.accessToken ≠ draw.refreshToken)
    (fresh : ∀ row ∈ tokens, row.tokenHash ≠ draw.accessToken ∧ row.tokenHash ≠ draw.refreshToken)
    (unused : consumedAt granted (.refresh draw.refreshToken) = none)
    (lifetime : ∀ family ∈ families, family.expiresAt ≤ draw.refreshNow + refreshTokenMs) :
    TokensSound granted families (tokens ++
      [draw.accessRow familyId sequence timestamp, draw.refreshRow familyId sequence timestamp]) := by
  obtain ⟨family_eq, number_eq, access_eq, refresh_eq⟩ := issued
  have cases {P : TokenRow → Prop} (old : ∀ row ∈ tokens, P row)
      (access : P (draw.accessRow familyId sequence timestamp))
      (refresh : P (draw.refreshRow familyId sequence timestamp)) :
      ∀ row ∈ tokens ++ [draw.accessRow familyId sequence timestamp,
        draw.refreshRow familyId sequence timestamp], P row := by
    intro row member
    simp only [List.mem_append, List.mem_cons, List.not_mem_nil, or_false] at member
    rcases member with before | rfl | rfl
    · exact old row before
    · exact access
    · exact refresh
  constructor
  case distinct =>
    rw [List.append_cons]
    refine nodup_map_append (nodup_map_append sound.distinct fun row member => (fresh row member).1) ?_
    intro row member
    rcases List.mem_append.mp member with before | added
    · exact (fresh row before).2
    · obtain rfl := List.mem_singleton.mp added
      exact apart
  case carries =>
    exact cases sound.carries ⟨grant, present, family_eq.symm, number_eq.symm, .inl ⟨rfl, access_eq.symm⟩⟩
      ⟨grant, present, family_eq.symm, number_eq.symm, .inr ⟨rfl, refresh_eq.symm⟩⟩
  case used => exact cases sound.used (by intro never; cases never) fun _ => unused.symm
  case revoked => exact cases sound.revoked (by intro never; cases never) (by intro never; cases never)
  case outlives =>
    exact cases sound.outlives (by intro never; cases never) fun _ family member _ => lifetime family member

end Tokens

section Missing

variable {clock later : Timestamp} {drawn : List String} {granted : List Grant}
  {families rest : List TokenFamilyRow} {tokens next : List TokenRow} {new : Grant}

theorem MissingDead.mono (missing : MissingDead clock granted families tokens) (le : clock ≤ later) :
    MissingDead later granted families tokens :=
  fun grant member => (missing grant member).imp_right (·.later le)

theorem MissingDead.dropFamilies (missing : MissingDead clock granted families tokens)
    (fewer : ∀ family ∈ rest, family ∈ families) : MissingDead clock granted rest tokens :=
  fun grant member => (missing grant member).imp_right (·.subset fewer)

/-- A deleted token was expired or revoked, and so is its family. -/
theorem MissingDead.delete (missing : MissingDead clock granted families tokens)
    (sound : TokensSound granted families tokens) (history : GrantHistory drawn granted)
    {keep : TokenRow → Bool}
    (deleted : ∀ row ∈ tokens, keep row = false → row.expiresAt ≤ clock ∨ row.revokedAt.isSome) :
    MissingDead clock granted families (tokens.filter keep) := by
  intro grant member
  rcases missing grant member with ⟨row, present, kind, hash⟩ | dead
  · cases kept : keep row with
    | true => exact .inl ⟨row, List.mem_filter.mpr ⟨present, kept⟩, kind, hash⟩
    | false =>
      refine .inr fun family inFamilies same => ?_
      have belongs : family.id = row.familyId := by
        obtain ⟨carried, inHistory, family_eq, _, access | refresh⟩ := sound.carries row present
        · cases kind.symm.trans access.1
        · rw [same, family_eq, history.eq_of_refreshToken member inHistory (hash.symm.trans refresh.2)]
      rcases deleted row present kept with expired | revoked
      · exact .inr (Nat.le_trans (sound.outlives row present kind family inFamilies belongs) expired)
      · exact .inl (sound.revoked row present revoked family inFamilies belongs)
  · exact .inr dead

theorem MissingDead.revoke (missing : MissingDead clock granted families tokens) (id : String)
    (timestamp : Timestamp) :
    MissingDead clock granted (families.map (TokenFamilyRow.revoke id timestamp))
      (tokens.map (TokenRow.revoke id timestamp)) := by
  intro grant member
  rcases missing grant member with ⟨row, present, kind, hash⟩ | dead
  · obtain ⟨hash_eq, kind_eq, _⟩ := TokenRow.revoke_columns id timestamp row
    exact .inl ⟨_, List.mem_map_of_mem present, kind_eq.trans kind, hash_eq.trans hash⟩
  · exact .inr (dead.revoke id timestamp)

/-- A new pair has its row, and the earlier ones keep theirs. -/
theorem MissingDead.issue (missing : MissingDead clock granted families tokens)
    (kept : ∀ row ∈ tokens, ∃ other ∈ next, other.tokenType = row.tokenType ∧ other.tokenHash = row.tokenHash)
    (issued : ∃ row ∈ next, row.tokenType = .refresh ∧ row.tokenHash = new.refreshToken) :
    MissingDead clock (granted ++ [new]) families next := by
  intro grant member
  rcases List.mem_append.mp member with before | added
  · rcases missing grant before with ⟨row, present, kind, hash⟩ | dead
    · obtain ⟨other, there, kind_eq, hash_eq⟩ := kept row present
      exact .inl ⟨other, there, kind_eq.trans kind, hash_eq.trans hash⟩
    · exact .inr dead
  · obtain rfl := List.mem_singleton.mp added
    exact .inl issued

end Missing

end LatexRenderer
