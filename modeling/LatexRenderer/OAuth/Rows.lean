import LatexRenderer.OAuth.History

/-! # The rows of the grants and their history

What the rows of codes, families and tokens tell of the history: a row is marked as used exactly when the
history has traded it, at the instant of the trade; every token row carries a pair of its family; a
revoked token belongs to a revoked family; and a pair whose refresh token has no row any more belongs
to a family that is revoked, expired or gone.
-/

namespace LatexRenderer

open Machine

/-- The rows of `remote_mcp_authorization_codes`. -/
structure CodesSound (drawn : List String) (granted : List Grant) (codes : List AuthorizationCodeRow) :
    Prop where
  distinct : (codes.map (·.codeHash)).Nodup
  named : ∀ code ∈ codes, code.codeHash ∈ drawn
  used : ∀ code ∈ codes, code.usedAt = consumedAt granted (.code code.codeHash)

/-- The rows of `remote_mcp_token_families`. -/
structure FamiliesSound (clock : Timestamp) (drawn : List String) (granted : List Grant)
    (families : List TokenFamilyRow) : Prop where
  distinct : (families.map (·.id)).Nodup
  named : ∀ family ∈ families, family.id ∈ drawn
  bound : ∀ family ∈ families, ∀ grant ∈ granted, grant.familyId = family.id →
    grant.clientId = family.clientId ∧ grant.resource = family.resource
  lifetime : ∀ family ∈ families, family.expiresAt ≤ clock + refreshTokenMs

/-- A token row carries a secret of a pair. -/
def TokenRow.Carries (row : TokenRow) (grant : Grant) : Prop :=
  row.familyId = grant.familyId ∧ row.sequence = grant.sequence ∧
    (row.tokenType = .access ∧ row.tokenHash = grant.accessToken ∨
      row.tokenType = .refresh ∧ row.tokenHash = grant.refreshToken)

/-- The rows of `remote_mcp_tokens`. -/
structure TokensSound (granted : List Grant) (families : List TokenFamilyRow) (tokens : List TokenRow) :
    Prop where
  distinct : (tokens.map (·.tokenHash)).Nodup
  carries : ∀ row ∈ tokens, ∃ grant ∈ granted, row.Carries grant
  used : ∀ row ∈ tokens, row.tokenType = .refresh → row.usedAt = consumedAt granted (.refresh row.tokenHash)
  revoked : ∀ row ∈ tokens, row.revokedAt.isSome → ∀ family ∈ families, family.id = row.familyId →
    family.revokedAt.isSome
  outlives : ∀ row ∈ tokens, row.tokenType = .refresh → ∀ family ∈ families, family.id = row.familyId →
    family.expiresAt ≤ row.expiresAt

/-- From an instant on, a family is revoked, expired or gone. -/
def DeadFrom (families : List TokenFamilyRow) (id : String) (instant : Timestamp) : Prop :=
  ∀ family ∈ families, family.id = id → family.revokedAt.isSome ∨ family.expiresAt ≤ instant

/-- A pair whose refresh token has no row belongs to a dead family. -/
def MissingDead (clock : Timestamp) (granted : List Grant) (families : List TokenFamilyRow)
    (tokens : List TokenRow) : Prop :=
  ∀ grant ∈ granted, (∃ row ∈ tokens, row.tokenType = .refresh ∧ row.tokenHash = grant.refreshToken) ∨
    DeadFrom families grant.familyId clock

/-- A reply was sent for a pair of its family. -/
def RefreshReply.Sent (granted : List Grant) (reply : RefreshReply) : Prop :=
  ∃ grant ∈ granted, grant.familyId = reply.familyId ∧
    grant.accessToken = reply.response.accessToken ∧ grant.refreshToken = reply.response.refreshToken

/-- A request that is about to trade a code has validated it. -/
def OAuthCall.Validated : OAuthCall → Prop
  | .authorizing .. => True
  | .exchanging _ code input timestamp => validateCode code input timestamp = true

/-- The invariant of the OAuth service. -/
structure OAuthSystem.Sound (s : OAuthSystem) : Prop where
  history : GrantHistory s.drawn s.granted
  codes : CodesSound s.drawn s.granted s.db.codes
  families : FamiliesSound s.clock s.drawn s.granted s.db.families
  tokens : TokensSound s.granted s.db.families s.db.tokens
  missing : MissingDead s.clock s.granted s.db.families s.db.tokens
  replies : ∀ process, ∀ reply ∈ s.replies process, reply.Sent s.granted
  calls : ∀ call ∈ s.calls, call.Validated

section Dead

variable {families rest : List TokenFamilyRow} {id : String} {instant after : Timestamp}

theorem DeadFrom.later (dead : DeadFrom families id instant) (le : instant ≤ after) :
    DeadFrom families id after :=
  fun family member same => (dead family member same).imp_right fun expired => Nat.le_trans expired le

theorem DeadFrom.subset (dead : DeadFrom families id instant) (fewer : ∀ family ∈ rest, family ∈ families) :
    DeadFrom rest id instant :=
  fun family member same => dead family (fewer family member) same

/-- A new family of another id leaves a family dead. -/
theorem DeadFrom.insert (dead : DeadFrom families id instant) {new : TokenFamilyRow} (other : new.id ≠ id) :
    DeadFrom (families ++ [new]) id instant := by
  intro family member same
  rcases List.mem_append.mp member with before | added
  · exact dead family before same
  · obtain rfl := List.mem_singleton.mp added
    exact absurd same other

theorem TokenFamilyRow.revoke_id (id : String) (timestamp : Timestamp) (row : TokenFamilyRow) :
    (row.revoke id timestamp).id = row.id := by
  unfold revoke
  split <;> rfl

theorem TokenFamilyRow.revoke_isSome {id : String} {timestamp : Timestamp} {row : TokenFamilyRow}
    (revoked : row.id = id ∨ row.revokedAt.isSome) : (row.revoke id timestamp).revokedAt.isSome := by
  unfold revoke
  split
  · rfl
  · exact revoked.resolve_left ‹_›

theorem TokenFamilyRow.revoke_expiresAt (id : String) (timestamp : Timestamp) (row : TokenFamilyRow) :
    (row.revoke id timestamp).expiresAt = row.expiresAt := by
  unfold revoke
  split <;> rfl

theorem DeadFrom.revoke (dead : DeadFrom families id instant) (other : String) (timestamp : Timestamp) :
    DeadFrom (families.map (TokenFamilyRow.revoke other timestamp)) id instant := by
  intro family member same
  obtain ⟨row, present, rfl⟩ := List.mem_map.mp member
  rw [TokenFamilyRow.revoke_id] at same
  rcases dead row present same with revoked | expired
  · exact .inl (TokenFamilyRow.revoke_isSome (.inr revoked))
  · exact .inr ((TokenFamilyRow.revoke_expiresAt ..).trans_le expired)

theorem deadFrom_revoked (families : List TokenFamilyRow) (id : String) (timestamp instant : Timestamp) :
    DeadFrom (families.map (TokenFamilyRow.revoke id timestamp)) id instant := by
  intro family member same
  obtain ⟨row, present, rfl⟩ := List.mem_map.mp member
  exact .inl (TokenFamilyRow.revoke_isSome (.inl ((TokenFamilyRow.revoke_id ..).symm.trans same)))

end Dead

section Codes

variable {drawn more : List String} {granted : List Grant} {codes next : List AuthorizationCodeRow}
  {new : Grant}

theorem CodesSound.insert (sound : CodesSound drawn granted codes) (history : GrantHistory drawn granted)
    (code : AuthorizationCodeRow) (fresh : code.codeHash ∉ drawn) (unused : code.usedAt = none) :
    CodesSound (code.codeHash :: drawn) granted (codes ++ [code]) := by
  constructor
  case distinct =>
    exact nodup_map_append sound.distinct fun row member same => fresh (same ▸ sound.named row member)
  case named =>
    intro row member
    rcases List.mem_append.mp member with before | added
    · exact List.mem_cons_of_mem _ (sound.named row before)
    · obtain rfl := List.mem_singleton.mp added
      exact List.mem_cons_self
  case used =>
    intro row member
    rcases List.mem_append.mp member with before | added
    · exact sound.used row before
    · obtain rfl := List.mem_singleton.mp added
      have untraded : consumedAt granted (.code row.codeHash) = none := history.consumedAt_of_fresh fresh
      rw [unused, untraded]

theorem CodesSound.subset (sound : CodesSound drawn granted codes) (fewer : List.Sublist next codes) :
    CodesSound drawn granted next where
  distinct := sound.distinct.sublist (fewer.map _)
  named code member := sound.named code (fewer.subset member)
  used code member := sound.used code (fewer.subset member)

/-- The trade of a refresh token leaves the codes alone. -/
theorem CodesSound.rotate (sound : CodesSound drawn granted codes) (grows : drawn ⊆ more) {hash : String}
    (origin : new.origin = .refresh hash) : CodesSound more (granted ++ [new]) codes where
  distinct := sound.distinct
  named code member := grows (sound.named code member)
  used code member := by
    rw [consumedAt_append_of_ne (by simp [origin])]
    exact sound.used code member

/-- A consumed code was not traded before, and is marked as the trade that follows. -/
theorem CodesSound.consume (sound : CodesSound drawn granted codes) (new : Grant) (grows : drawn ⊆ more)
    {hash : String}
    (updated : update? (·.codeHash == hash) (AuthorizationCodeRow.consume new.timestamp) codes = some next)
    (origin : new.origin = .code hash) :
    consumedAt granted new.origin = none ∧ hash ∈ drawn ∧ CodesSound more (granted ++ [new]) next := by
  obtain ⟨row, used, present, rfl, consumed, mem⟩ := update?_of_nodup updated sound.distinct
  obtain ⟨⟨unused, _⟩, eq⟩ := (Option.ite_none_right_eq_some ..).mp consumed
  have same : used.codeHash = row.codeHash := by rw [← Option.some.inj eq]
  have untraded : consumedAt granted new.origin = none := by
    rw [origin, ← sound.used row present, unused]
  refine ⟨untraded, sound.named row present, ?_⟩
  constructor
  case distinct =>
    rw [update?_map updated ?_]
    · exact sound.distinct
    · intro before after consumed
      obtain ⟨_, eq⟩ := (Option.ite_none_right_eq_some ..).mp consumed
      rw [← Option.some.inj eq]
  case named =>
    intro code member
    rcases (mem code).mp member with rfl | ⟨before, _⟩
    · exact grows (same ▸ sound.named row present)
    · exact grows (sound.named code before)
  case used =>
    intro code member
    rcases (mem code).mp member with rfl | ⟨before, apart⟩
    · rw [same, ← origin, consumedAt_append_self untraded, ← Option.some.inj eq]
    · rw [consumedAt_append_of_ne (by simpa [origin] using fun same => apart same.symm)]
      exact sound.used code before

end Codes

section Families

variable {clock later : Timestamp} {drawn more : List String} {granted : List Grant}
  {families next : List TokenFamilyRow} {new : Grant}

theorem FamiliesSound.mono (sound : FamiliesSound clock drawn granted families) (le : clock ≤ later)
    (grows : drawn ⊆ more) : FamiliesSound later more granted families where
  distinct := sound.distinct
  named family member := grows (sound.named family member)
  bound := sound.bound
  lifetime family member := Nat.le_trans (sound.lifetime family member) (Nat.add_le_add_right le _)

theorem FamiliesSound.subset (sound : FamiliesSound clock drawn granted families)
    (fewer : List.Sublist next families) : FamiliesSound clock drawn granted next where
  distinct := sound.distinct.sublist (fewer.map _)
  named family member := sound.named family (fewer.subset member)
  bound family member := sound.bound family (fewer.subset member)
  lifetime family member := sound.lifetime family (fewer.subset member)

theorem FamiliesSound.revoke (sound : FamiliesSound clock drawn granted families) (id : String)
    (timestamp : Timestamp) :
    FamiliesSound clock drawn granted (families.map (TokenFamilyRow.revoke id timestamp)) := by
  have columns : ∀ row : TokenFamilyRow, (row.revoke id timestamp).id = row.id ∧
      (row.revoke id timestamp).clientId = row.clientId ∧
      (row.revoke id timestamp).resource = row.resource ∧
      (row.revoke id timestamp).expiresAt = row.expiresAt := by
    intro row
    unfold TokenFamilyRow.revoke
    split <;> exact ⟨rfl, rfl, rfl, rfl⟩
  constructor
  case distinct =>
    rw [map_map_column fun row => (columns row).1]
    exact sound.distinct
  all_goals
    intro family member
    obtain ⟨row, present, rfl⟩ := List.mem_map.mp member
    obtain ⟨id_eq, client_eq, resource_eq, expires_eq⟩ := columns row
  case named => exact id_eq ▸ sound.named row present
  case bound => rw [id_eq, client_eq, resource_eq]; exact sound.bound row present
  case lifetime => exact expires_eq ▸ sound.lifetime row present

/-- A further pair of a family with a row has the family's binding. -/
theorem FamiliesSound.rotate (sound : FamiliesSound clock drawn granted families) {family : TokenFamilyRow}
    (member : family ∈ families) (same : new.familyId = family.id)
    (bound : new.clientId = family.clientId ∧ new.resource = family.resource) :
    FamiliesSound clock drawn (granted ++ [new]) families :=
  { sound with
    bound := by
      intro other present grant inHistory belongs
      rcases List.mem_append.mp inHistory with before | added
      · exact sound.bound other present grant before belongs
      · obtain rfl := List.mem_singleton.mp added
        have one : other = family :=
          List.inj_on_of_nodup_map sound.distinct present member (belongs.symm.trans same)
        exact one ▸ bound }

theorem FamiliesSound.insert (sound : FamiliesSound clock drawn granted families)
    (history : GrantHistory drawn granted) (family : TokenFamilyRow) (fresh : family.id ∉ drawn)
    (lifetime : family.expiresAt ≤ clock + refreshTokenMs) (same : new.familyId = family.id)
    (bound : new.clientId = family.clientId ∧ new.resource = family.resource) :
    FamiliesSound clock (family.id :: drawn) (granted ++ [new]) (families ++ [family]) := by
  constructor
  case distinct =>
    exact nodup_map_append sound.distinct fun row member same => fresh (same ▸ sound.named row member)
  case named =>
    intro row member
    rcases List.mem_append.mp member with before | added
    · exact List.mem_cons_of_mem _ (sound.named row before)
    · obtain rfl := List.mem_singleton.mp added
      exact List.mem_cons_self
  case bound =>
    intro row member grant inHistory belongs
    rcases List.mem_append.mp member with before | added <;>
      rcases List.mem_append.mp inHistory with earlier | last
    · exact sound.bound row before grant earlier belongs
    · obtain rfl := List.mem_singleton.mp last
      exact absurd (belongs.symm.trans same ▸ sound.named row before) fresh
    · obtain rfl := List.mem_singleton.mp added
      exact absurd (belongs ▸ history.named grant earlier _ (by simp [Grant.names])) fresh
    · obtain rfl := List.mem_singleton.mp added
      obtain rfl := List.mem_singleton.mp last
      exact bound
  case lifetime =>
    intro row member
    rcases List.mem_append.mp member with before | added
    · exact sound.lifetime row before
    · obtain rfl := List.mem_singleton.mp added
      exact lifetime

end Families

end LatexRenderer
