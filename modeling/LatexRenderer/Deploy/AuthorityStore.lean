import LatexRenderer.Deploy.AuthorityChanges
import LatexRenderer.Machine.Table

/-! # The rules of the authority hold in every state

A nonce is consumed with its row, an invite gives a use for every installation that comes by it, limits are
checked before every insertion, and nothing takes back a revocation or a bound key. Each rule is about its own
tables, so every change is looked at once for each of them.
-/

namespace LatexRenderer

open Machine

variable {Body : Type} {runtime : AuthorityRuntime Body} {policy : AuthorityPolicy}

section Nonces

variable {nonces issued : List AuthorityNonce} {authorised : List (AuthorisedRequest Body)}

/-- The request was made by the installation that its nonce was issued to, before the nonce expired. -/
structure AuthorisedRequest.Made (runtime : AuthorityRuntime Body) (policy : AuthorityPolicy)
    (issued : List AuthorityNonce) (request : AuthorisedRequest Body) : Prop where
  identified : request.installationId = runtime.installationId request.publicKey
  audience : request.message.audience = policy.serverOrigin
  verified : runtime.verify request.publicKey request.message request.signature = true
  issued : ∃ row ∈ issued, row.nonce = request.message.nonce ∧ row.installationId = request.installationId ∧
    request.time < row.expiresAt

/-- The nonces that are left have not been used. -/
structure NoncesSound (runtime : AuthorityRuntime Body) (policy : AuthorityPolicy)
    (nonces issued : List AuthorityNonce) (authorised : List (AuthorisedRequest Body)) : Prop where
  distinct : (nonces.map AuthorityNonce.nonce).Nodup
  recorded : ∀ row ∈ nonces, row ∈ issued
  unused : ∀ row ∈ nonces, ∀ request ∈ authorised, request.message.nonce ≠ row.nonce
  issuedOnce : (issued.map AuthorityNonce.nonce).Nodup
  made : ∀ request ∈ authorised, request.Made runtime policy issued
  usedOnce : (authorised.map fun request => request.message.nonce).Nodup

theorem NoncesSound.filter (sound : NoncesSound runtime policy nonces issued authorised)
    (keep : AuthorityNonce → Bool) : NoncesSound runtime policy (nonces.filter keep) issued authorised where
  distinct := sound.distinct.sublist (List.filter_sublist.map _)
  recorded row member := sound.recorded row (List.mem_of_mem_filter member)
  unused row member := sound.unused row (List.mem_of_mem_filter member)
  issuedOnce := sound.issuedOnce
  made := sound.made
  usedOnce := sound.usedOnce

theorem AuthorisedRequest.Made.issue {request : AuthorisedRequest Body} {row : AuthorityNonce}
    (made : request.Made runtime policy issued) : request.Made runtime policy (row :: issued) := by
  obtain ⟨found, member, rest⟩ := made.issued
  exact ⟨made.identified, made.audience, made.verified, found, List.mem_cons_of_mem _ member, rest⟩

theorem NoncesSound.issue {row : AuthorityNonce} (sound : NoncesSound runtime policy nonces issued authorised)
    (fresh : ∀ other ∈ issued, other.nonce ≠ row.nonce) :
    NoncesSound runtime policy (nonces ++ [row]) (row :: issued) authorised where
  distinct := nodup_map_append sound.distinct fun other member => fresh other (sound.recorded other member)
  recorded other member := by
    rcases List.mem_append.mp member with before | new
    · exact List.mem_cons_of_mem _ (sound.recorded other before)
    · exact List.mem_cons.mpr (.inl (List.mem_singleton.mp new))
  unused other member request used := by
    rcases List.mem_append.mp member with before | new
    · exact sound.unused other before request used
    · obtain rfl := List.mem_singleton.mp new
      obtain ⟨found, listed, same, -⟩ := (sound.made request used).issued
      exact same ▸ fresh found listed
  issuedOnce := by
    refine List.nodup_cons.mpr ⟨fun member => ?_, sound.issuedOnce⟩
    obtain ⟨other, listed, same⟩ := List.mem_map.mp member
    exact fresh other listed same
  made request used := (sound.made request used).issue
  usedOnce := sound.usedOnce

/-- A consumed nonce is gone, and was not used before. -/
theorem NoncesSound.consume {key : PublicKey} {message : AuthorityMessage Body} {signature : Text} {now : Timestamp}
    (sound : NoncesSound runtime policy nonces issued authorised) (audience : message.audience = policy.serverOrigin)
    (verified : runtime.verify key message signature = true)
    (usable : ∃ row ∈ nonces, row.usable message.nonce (runtime.installationId key) now = true) :
    NoncesSound runtime policy
      (nonces.filter fun row => !row.usable message.nonce (runtime.installationId key) now) issued
      (⟨runtime.installationId key, key, message, signature, now⟩ :: authorised) := by
  obtain ⟨row, member, used⟩ := usable
  have fits := used
  simp only [AuthorityNonce.usable, Bool.and_eq_true, decide_eq_true_eq] at fits
  obtain ⟨⟨same, owner⟩, live⟩ := fits
  have kept := sound.filter fun row => !row.usable message.nonce (runtime.installationId key) now
  refine ⟨kept.distinct, kept.recorded, fun other left request listed => ?_, sound.issuedOnce,
    fun request listed => ?_, List.nodup_cons.mpr ⟨fun again => ?_, sound.usedOnce⟩⟩
  · rcases List.mem_cons.mp listed with rfl | before
    · intro also
      have one : other = row := List.inj_on_of_nodup_map sound.distinct (List.mem_of_mem_filter left) member
        (also.symm.trans same.symm)
      have unusable := (List.mem_filter.mp left).2
      rw [one, used] at unusable
      cases unusable
    · exact kept.unused other left request before
  · rcases List.mem_cons.mp listed with rfl | before
    · exact ⟨rfl, audience, verified, row, sound.recorded row member, same, owner, live⟩
    · exact sound.made request before
  · obtain ⟨request, listed, also⟩ := List.mem_map.mp again
    exact sound.unused row member request listed (also.trans same.symm)

end Nonces

section Invites

variable {invites : List AuthorityInvite} {invited : List (Text × Nat)} {enrolled : List (InstallationId × Option Text)}

/-- How many installations came by the invite. -/
def createdThrough (code : Text) (enrolled : List (InstallationId × Option Text)) : Nat :=
  enrolled.countP fun entry => entry.2 = some code

/-- The uses that the invite has left. -/
def remainingUses (code : Text) (invites : List AuthorityInvite) : Nat :=
  total (fun row => if row.code = code then row.remaining else 0) invites

/-- Every invite keeps within its uses. -/
structure InvitesSound (invites : List AuthorityInvite) (invited : List (Text × Nat))
    (enrolled : List (InstallationId × Option Text)) : Prop where
  recorded : ∀ row ∈ invites, ∃ uses, (row.code, uses) ∈ invited
  budget : ∀ code uses, (code, uses) ∈ invited → createdThrough code enrolled + remainingUses code invites ≤ uses
  known : ∀ id code, (id, some code) ∈ enrolled → ∃ uses, (code, uses) ∈ invited

theorem InvitesSound.filter (sound : InvitesSound invites invited enrolled) (keep : AuthorityInvite → Bool) :
    InvitesSound (invites.filter keep) invited enrolled where
  recorded row member := sound.recorded row (List.mem_of_mem_filter member)
  budget code uses listed := by
    have before := sound.budget code uses listed
    have fewer : remainingUses code (invites.filter keep) ≤ remainingUses code invites :=
      total_le_of_sublist _ List.filter_sublist
    omega
  known := sound.known

theorem InvitesSound.enrol {id : InstallationId} (sound : InvitesSound invites invited enrolled) :
    InvitesSound invites invited ((id, none) :: enrolled) where
  recorded := sound.recorded
  budget code uses listed := by
    have same : createdThrough code ((id, none) :: enrolled) = createdThrough code enrolled :=
      List.countP_cons_of_neg (by simp)
    rw [same]
    exact sound.budget code uses listed
  known other code listed := by
    rcases List.mem_cons.mp listed with never | before
    · cases never
    · exact sound.known other code before

theorem use_code {code : Text} {now : Timestamp} {row : AuthorityInvite} : (row.use code now).code = row.code := by
  unfold AuthorityInvite.use
  split <;> rfl

theorem remainingUses_use_other {code other : Text} {now : Timestamp} (different : other ≠ code) :
    remainingUses other (invites.map (AuthorityInvite.use code now)) = remainingUses other invites := by
  induction invites with
  | nil => rfl
  | cons row rows ih =>
    have same : (if (row.use code now).code = other then (row.use code now).remaining else 0) =
        if row.code = other then row.remaining else 0 := by
      rw [use_code]
      split
      · next named =>
        unfold AuthorityInvite.use
        rw [if_neg fun mine => different (named.symm.trans mine.1)]
      · rfl
    simp only [remainingUses, List.map_cons, total_cons] at ih ⊢
    omega

theorem remainingUses_use_le {code : Text} {now : Timestamp} :
    remainingUses code (invites.map (AuthorityInvite.use code now)) ≤ remainingUses code invites := by
  induction invites with
  | nil => exact Nat.le_refl _
  | cons row rows ih =>
    have less : (if (row.use code now).code = code then (row.use code now).remaining else 0) ≤
        if row.code = code then row.remaining else 0 := by
      rw [use_code]
      have fewer : (row.use code now).remaining ≤ row.remaining := by
        unfold AuthorityInvite.use
        split
        · exact Nat.sub_le _ _
        · exact Nat.le_refl _
      split
      · exact fewer
      · exact Nat.le_refl _
    simp only [remainingUses, List.map_cons, total_cons] at ih ⊢
    omega

theorem remainingUses_use {code : Text} {now : Timestamp}
    (usable : ∃ row ∈ invites, row.code = code ∧ now < row.expiresAt ∧ 0 < row.remaining) :
    remainingUses code (invites.map (AuthorityInvite.use code now)) + 1 ≤ remainingUses code invites := by
  induction invites with
  | nil => simp at usable
  | cons row rows ih =>
    obtain ⟨found, member, named, live, left⟩ := usable
    rcases List.mem_cons.mp member with rfl | later
    · have taken : found.use code now = { found with remaining := found.remaining - 1 } :=
        if_pos ⟨named, live, left⟩
      have rest : remainingUses code (rows.map (AuthorityInvite.use code now)) ≤ remainingUses code rows :=
        remainingUses_use_le
      simp only [remainingUses, List.map_cons, total_cons, taken, named, ↓reduceIte] at rest ⊢
      omega
    · have rest := ih ⟨found, later, named, live, left⟩
      have here : remainingUses code ([row].map (AuthorityInvite.use code now)) ≤ remainingUses code [row] :=
        remainingUses_use_le
      simp only [remainingUses, List.map_cons, total_cons, total_nil] at rest here ⊢
      omega

theorem InvitesSound.enrolInvited {id : InstallationId} {code : Text} {now : Timestamp}
    (sound : InvitesSound invites invited enrolled)
    (usable : ∃ row ∈ invites, row.code = code ∧ now < row.expiresAt ∧ 0 < row.remaining) :
    InvitesSound (invites.map (AuthorityInvite.use code now)) invited ((id, some code) :: enrolled) where
  recorded row member := by
    obtain ⟨before, listed, rfl⟩ := List.mem_map.mp member
    rw [use_code]
    exact sound.recorded before listed
  budget other uses listed := by
    have before := sound.budget other uses listed
    by_cases mine : other = code
    · subst mine
      have taken := remainingUses_use usable
      have one : createdThrough other ((id, some other) :: enrolled) = createdThrough other enrolled + 1 :=
        List.countP_cons_of_pos (by simp)
      omega
    · have same : createdThrough other ((id, some code) :: enrolled) = createdThrough other enrolled :=
        List.countP_cons_of_neg (by simpa using fun also => mine also.symm)
      rw [same, remainingUses_use_other mine]
      exact before
  known other found listed := by
    rcases List.mem_cons.mp listed with here | before
    · cases here
      obtain ⟨row, member, named, -⟩ := usable
      exact named ▸ sound.recorded row member
    · exact sound.known other found before

theorem remainingUses_eq_zero {code : Text} (absent : ∀ row ∈ invites, row.code ≠ code) :
    remainingUses code invites = 0 :=
  total_eq_zero_iff.mpr fun row member => if_neg (absent row member)

theorem InvitesSound.invite {code : Text} {uses : Nat} {expiresAt : Timestamp}
    (sound : InvitesSound invites invited enrolled) (fresh : ∀ row ∈ invited, row.1 ≠ code) :
    InvitesSound (invites ++ [⟨code, expiresAt, uses⟩]) ((code, uses) :: invited) enrolled where
  recorded row member := by
    rcases List.mem_append.mp member with before | new
    · obtain ⟨found, listed⟩ := sound.recorded row before
      exact ⟨found, List.mem_cons_of_mem _ listed⟩
    · obtain rfl := List.mem_singleton.mp new
      exact ⟨uses, List.mem_cons_self⟩
  budget other found listed := by
    have added : remainingUses other (invites ++ [⟨code, expiresAt, uses⟩]) =
        remainingUses other invites + if code = other then uses else 0 := by
      simp [remainingUses]
    rw [added]
    rcases List.mem_cons.mp listed with here | before
    · cases here
      have unused : createdThrough code enrolled = 0 := by
        refine List.countP_eq_zero.mpr fun entry member same => ?_
        obtain ⟨id, invitation⟩ := entry
        obtain rfl : invitation = some code := of_decide_eq_true same
        obtain ⟨uses, known⟩ := sound.known id code member
        exact fresh _ known rfl
      have none_left : remainingUses code invites = 0 := remainingUses_eq_zero fun row member same => by
        obtain ⟨uses, known⟩ := sound.recorded row member
        exact fresh _ known same
      rw [if_pos rfl]
      omega
    · rw [if_neg fun same => fresh _ before same.symm]
      exact sound.budget other found before
  known id found listed := by
    obtain ⟨uses, known⟩ := sound.known id found listed
    exact ⟨uses, List.mem_cons_of_mem _ known⟩

end Invites

section Installations

variable {installations : List AuthorityInstallation} {challenges : List AuthorityChallenge}
  {enrolled : List (InstallationId × Option Text)}

/-- Installations are known by their keys, and stay. -/
structure InstallationsSound (runtime : AuthorityRuntime Body) (installations : List AuthorityInstallation)
    (enrolled : List (InstallationId × Option Text)) : Prop where
  distinct : (installations.map AuthorityInstallation.id).Nodup
  identified : ∀ row ∈ installations, row.id = runtime.installationId row.publicKey
  entered : enrolled.map Prod.fst = (installations.map AuthorityInstallation.id).reverse

/-- The installation is revoked. -/
def RevokedIn (installations : List AuthorityInstallation) (id : InstallationId) : Prop :=
  ∃ row ∈ installations, row.id = id ∧ row.revoked = true

/-- The rows after an update of one installation. -/
abbrev changeRow (id : InstallationId) (change : AuthorityInstallation → AuthorityInstallation)
    (installations : List AuthorityInstallation) : List AuthorityInstallation :=
  installations.map fun row => if row.id = id then change row else row

theorem InstallationsSound.change {id : InstallationId} {change : AuthorityInstallation → AuthorityInstallation}
    (sound : InstallationsSound runtime installations enrolled) (same : ∀ row, (change row).id = row.id)
    (key : ∀ row, (change row).publicKey = row.publicKey) :
    InstallationsSound runtime (changeRow id change installations) enrolled := by
  have ids : (changeRow id change installations).map AuthorityInstallation.id =
      installations.map AuthorityInstallation.id := map_map_column (fun row => by split <;> simp [same]) installations
  refine ⟨ids ▸ sound.distinct, fun row member => ?_, ids ▸ sound.entered⟩
  obtain ⟨before, listed, rfl⟩ := List.mem_map.mp member
  split
  · rw [same, key]
    exact sound.identified before listed
  · exact sound.identified before listed

theorem InstallationsSound.find (sound : InstallationsSound runtime installations enrolled)
    {row : AuthorityInstallation} (member : row ∈ installations) :
    (installations.find? fun other => other.id = row.id) = some row := by
  cases found : installations.find? fun other => decide (other.id = row.id) with
  | none => exact absurd (decide_eq_true rfl) (List.find?_eq_none.mp found row member)
  | some other =>
    have same : other.id = row.id := by simpa using List.find?_some found
    rw [List.inj_on_of_nodup_map sound.distinct (List.mem_of_find?_eq_some found) member same]

theorem InstallationsSound.enrol {key : PublicKey} {now : Timestamp} {code : Option Text}
    (sound : InstallationsSound runtime installations enrolled)
    (absent : (installations.find? fun row => row.id = runtime.installationId key) = none) :
    InstallationsSound runtime (installations ++ [⟨runtime.installationId key, key, now, now, false⟩])
      ((runtime.installationId key, code) :: enrolled) where
  distinct := nodup_map_append sound.distinct fun row member same =>
    List.find?_eq_none.mp absent row member (decide_eq_true same)
  identified row member := by
    rcases List.mem_append.mp member with before | new
    · exact sound.identified row before
    · obtain rfl := List.mem_singleton.mp new
      rfl
  entered := by simp [sound.entered]

/-- Every challenge is of an installation that is not revoked, under a name that it may have. -/
structure ChallengesSound (runtime : AuthorityRuntime Body) (policy : AuthorityPolicy)
    (installations : List AuthorityInstallation) (challenges : List AuthorityChallenge) : Prop where
  active : ∀ row ∈ challenges, ∃ owner ∈ installations, owner.id = row.installationId ∧ owner.revoked = false
  named : ∀ row ∈ challenges, ∃ hostname, row.name = challengeName hostname ∧
    AllowedHostname runtime policy row.installationId hostname

theorem ChallengesSound.filter (sound : ChallengesSound runtime policy installations challenges)
    (keep : AuthorityChallenge → Bool) : ChallengesSound runtime policy installations (challenges.filter keep) where
  active row member := sound.active row (List.mem_of_mem_filter member)
  named row member := sound.named row (List.mem_of_mem_filter member)

theorem ChallengesSound.enrol {new : AuthorityInstallation}
    (sound : ChallengesSound runtime policy installations challenges) :
    ChallengesSound runtime policy (installations ++ [new]) challenges where
  active row member := by
    obtain ⟨owner, listed, rest⟩ := sound.active row member
    exact ⟨owner, List.mem_append_left _ listed, rest⟩
  named := sound.named

/-- An update of an installation that does not revoke one with challenges. -/
theorem ChallengesSound.change {id : InstallationId} {change : AuthorityInstallation → AuthorityInstallation}
    (sound : ChallengesSound runtime policy installations challenges) (same : ∀ row, (change row).id = row.id)
    (keeps : (∀ row, (change row).revoked = row.revoked) ∨ ∀ row ∈ challenges, row.installationId ≠ id) :
    ChallengesSound runtime policy (changeRow id change installations) challenges where
  active row member := by
    obtain ⟨owner, listed, mine, unrevoked⟩ := sound.active row member
    refine ⟨_, List.mem_map_of_mem listed, ?_⟩
    split
    · next changed =>
      refine ⟨(same owner).trans mine, ?_⟩
      rcases keeps with keeps | other
      · exact (keeps owner).trans unrevoked
      · exact absurd (mine.symm.trans changed) (other row member)
    · exact ⟨mine, unrevoked⟩
  named := sound.named

theorem ChallengesSound.present {row : AuthorityChallenge} {hostname : Text}
    (sound : ChallengesSound runtime policy installations challenges)
    (active : ∃ owner ∈ installations, owner.id = row.installationId ∧ owner.revoked = false)
    (named : row.name = challengeName hostname) (allowed : AllowedHostname runtime policy row.installationId hostname) :
    ChallengesSound runtime policy installations (challenges ++ [row]) where
  active other member := by
    rcases List.mem_append.mp member with before | new
    · exact sound.active other before
    · obtain rfl := List.mem_singleton.mp new
      exact active
  named other member := by
    rcases List.mem_append.mp member with before | new
    · exact sound.named other before
    · obtain rfl := List.mem_singleton.mp new
      exact ⟨hostname, named, allowed⟩

end Installations

section Limits

/-- Nothing is over its limit. -/
structure AuthorityStore.WithinLimits (limits : AuthorityLimits) (s : AuthorityStore Body) : Prop where
  installations : s.installations.length ≤ limits.maxInstallations
  nonces : s.nonces.length ≤ limits.maxNonces
  noncesOf : ∀ id, s.noncesOf id ≤ limits.maxNoncesPerInstallation
  invites : s.invites.length ≤ limits.maxInvites
  challenges : s.challenges.length ≤ limits.maxChallenges
  challengesOf : ∀ id, s.challengesOf id ≤ limits.maxChallengesPerInstallation

variable {s t : AuthorityStore Body}

theorem countP_append_le {α : Type} {rows : List α} {row : α} {p : α → Bool} {limit : Nat}
    (before : rows.countP p ≤ limit) (room : p row = true → rows.countP p < limit) :
    (rows ++ [row]).countP p ≤ limit := by
  rw [List.countP_append]
  by_cases counted : p row = true
  · rw [List.countP_singleton, if_pos counted]
    exact room counted
  · rw [List.countP_singleton, if_neg counted]
    exact before

theorem AuthorityChange.limits (change : AuthorityChange runtime policy s t) (within : s.WithinLimits policy.limits) :
    t.WithinLimits policy.limits := by
  have fewer : ∀ {α : Type} {rows : List α} {limit : Nat} (keep : α → Bool), rows.length ≤ limit →
      (rows.filter keep).length ≤ limit := fun keep before => (List.length_filter_le keep _).trans before
  have fewerOf : ∀ {α : Type} {rows : List α} {limit : Nat} (keep p : α → Bool), rows.countP p ≤ limit →
      (rows.filter keep).countP p ≤ limit := fun keep _ before => List.filter_sublist.countP_le.trans before
  obtain ⟨installations, nonces, noncesOf, invites, challenges, challengesOf⟩ := within
  cases change with
  | prune now => exact ⟨installations, fewer _ nonces, fun id => fewerOf _ _ (noncesOf id), fewer _ invites,
      fewer _ challenges, fun id => fewerOf _ _ (challengesOf id)⟩
  | issue nonce id expiresAt _ total own fresh =>
    refine ⟨installations, by simpa using total, fun other => ?_, invites, challenges, challengesOf⟩
    refine countP_append_le (noncesOf other) fun mine => ?_
    obtain rfl : id = other := of_decide_eq_true mine
    exact own
  | consume => exact ⟨installations, fewer _ nonces, fun id => fewerOf _ _ (noncesOf id), invites, challenges,
      challengesOf⟩
  | touch => exact ⟨by simpa [AuthorityStore.setInstallation] using installations, nonces, noncesOf, invites,
      challenges, challengesOf⟩
  | enrol key now _ absent total =>
    exact ⟨by simpa using total, nonces, noncesOf, invites, challenges, challengesOf⟩
  | enrolInvited key code now _ absent total =>
    exact ⟨by simpa using total, nonces, noncesOf, by simpa using invites, challenges, challengesOf⟩
  | invite code uses expiresAt _ total =>
    exact ⟨installations, nonces, noncesOf, by simpa using total, challenges, challengesOf⟩
  | bind => exact ⟨installations, nonces, noncesOf, invites, challenges, challengesOf⟩
  | present challengeId id hostname value expiresAt _ active allowed total own =>
    refine ⟨installations, nonces, noncesOf, invites, by simpa using total, fun other => ?_⟩
    refine countP_append_le (challengesOf other) fun mine => ?_
    obtain rfl : id = other := of_decide_eq_true mine
    exact own
  | remove => exact ⟨installations, nonces, noncesOf, invites, fewer _ challenges,
      fun id => fewerOf _ _ (challengesOf id)⟩
  | operator => exact ⟨installations, nonces, noncesOf, invites, challenges, challengesOf⟩
  | revoke => exact ⟨by simpa [AuthorityStore.setInstallation] using installations, fewer _ nonces,
      fun id => fewerOf _ _ (noncesOf id), invites, fewer _ challenges, fun id => fewerOf _ _ (challengesOf id)⟩

end Limits

section Changes

variable {s t u : AuthorityStore Body}

/-- The rules of the authority. -/
structure AuthorityStore.Sound (runtime : AuthorityRuntime Body) (policy : AuthorityPolicy) (s : AuthorityStore Body) :
    Prop where
  nonces : NoncesSound runtime policy s.nonces s.issued s.authorised
  invites : InvitesSound s.invites s.invited s.enrolled
  installations : InstallationsSound runtime s.installations s.enrolled
  challenges : ChallengesSound runtime policy s.installations s.challenges
  accounts : (s.accounts.map fun row => (row.installationId, row.issuerId)).Nodup
  limits : s.WithinLimits policy.limits

theorem AuthorityChange.sound (change : AuthorityChange runtime policy s t) (sound : s.Sound runtime policy) :
    t.Sound runtime policy := by
  have within := change.limits sound.limits
  obtain ⟨nonces, invites, installations, challenges, accounts, -⟩ := sound
  cases change with
  | prune now => exact ⟨nonces.filter _, invites.filter _, installations, challenges.filter _, accounts, within⟩
  | issue nonce id expiresAt _ total own fresh =>
    exact ⟨nonces.issue fresh, invites, installations, challenges, accounts, within⟩
  | consume key message signature now _ audience verified usable admitted =>
    exact ⟨nonces.consume audience verified usable, invites, installations, challenges, accounts, within⟩
  | touch id now => exact ⟨nonces, invites, installations.change (fun _ => rfl) fun _ => rfl,
      challenges.change (fun _ => rfl) (.inl fun _ => rfl), accounts, within⟩
  | enrol key now _ absent => exact ⟨nonces, invites.enrol, installations.enrol absent, challenges.enrol, accounts, within⟩
  | enrolInvited key code now _ absent total invited =>
    exact ⟨nonces, invites.enrolInvited invited, installations.enrol absent, challenges.enrol, accounts, within⟩
  | invite code uses expiresAt _ total fresh =>
    exact ⟨nonces, invites.invite fresh, installations, challenges, accounts, within⟩
  | bind id issuer key now _ absent =>
    refine ⟨nonces, invites, installations, challenges, nodup_map_append accounts fun row member same => ?_, within⟩
    have unbound := List.find?_eq_none.mp absent row member
    simp only [Prod.mk.injEq] at same
    simp [same] at unbound
  | present challengeId id hostname value expiresAt _ active allowed =>
    obtain ⟨row, found, unrevoked⟩ := active
    have owner : row.id = id := by simpa [AuthorityStore.installation] using List.find?_some found
    exact ⟨nonces, invites, installations,
      challenges.present ⟨row, List.mem_of_find?_eq_some found, owner, unrevoked⟩ rfl allowed, accounts, within⟩
  | remove keep => exact ⟨nonces, invites, installations, challenges.filter _, accounts, within⟩
  | operator => exact ⟨nonces, invites, installations, challenges, accounts, within⟩
  | revoke id =>
    refine ⟨nonces.filter _, invites, installations.change (fun _ => rfl) fun _ => rfl,
      (challenges.filter _).change (fun _ => rfl) (.inr fun row member => ?_), accounts, within⟩
    exact of_decide_eq_true (List.mem_filter.mp member).2

/-- Revocations and bound keys stay, and what is committed later is of installations that are not revoked. -/
structure AuthorityStore.Extends (s t : AuthorityStore Body) : Prop where
  revoked : ∀ id, RevokedIn s.installations id → RevokedIn t.installations id
  accounts : ∀ row ∈ s.accounts, row ∈ t.accounts
  authorised : ∃ later, t.authorised = later ++ s.authorised ∧
    ∀ request ∈ later, ¬ RevokedIn s.installations request.installationId
  enrolled : ∃ later, t.enrolled = later ++ s.enrolled ∧ ∀ entry ∈ later, ¬ RevokedIn s.installations entry.1

theorem AuthorityStore.Extends.refl (s : AuthorityStore Body) : s.Extends s :=
  ⟨fun _ held => held, fun _ member => member, ⟨[], rfl, fun _ never => (nomatch never)⟩,
    ⟨[], rfl, fun _ never => (nomatch never)⟩⟩

theorem AuthorityStore.Extends.trans (first : s.Extends t) (second : t.Extends u) : s.Extends u := by
  obtain ⟨requests, authorised, allowed⟩ := first.authorised
  obtain ⟨later, authorised', allowed'⟩ := second.authorised
  obtain ⟨entries, enrolled, entered⟩ := first.enrolled
  obtain ⟨others, enrolled', entered'⟩ := second.enrolled
  refine ⟨fun id held => second.revoked id (first.revoked id held),
    fun row member => second.accounts row (first.accounts row member),
    ⟨later ++ requests, by rw [authorised', authorised, List.append_assoc], fun request member => ?_⟩,
    ⟨others ++ entries, by rw [enrolled', enrolled, List.append_assoc], fun entry member => ?_⟩⟩
  · rcases List.mem_append.mp member with new | old
    · exact fun held => allowed' request new (first.revoked _ held)
    · exact allowed request old
  · rcases List.mem_append.mp member with new | old
    · exact fun held => entered' entry new (first.revoked _ held)
    · exact entered entry old

theorem RevokedIn.change {installations : List AuthorityInstallation} {id other : InstallationId}
    {change : AuthorityInstallation → AuthorityInstallation} (held : RevokedIn installations other)
    (same : ∀ row, (change row).id = row.id) (keeps : ∀ row, row.revoked = true → (change row).revoked = true) :
    RevokedIn (changeRow id change installations) other := by
  obtain ⟨row, member, mine, revoked⟩ := held
  refine ⟨_, List.mem_map_of_mem member, ?_⟩
  split
  · exact ⟨(same row).trans mine, keeps row revoked⟩
  · exact ⟨mine, revoked⟩

theorem AuthorityChange.keeps (change : AuthorityChange runtime policy s t) (sound : s.Sound runtime policy) :
    s.Extends t := by
  have same := AuthorityStore.Extends.refl s
  have absentRow : ∀ id, s.installation id = none → ¬ RevokedIn s.installations id := by
    rintro id absent ⟨row, member, mine, -⟩
    exact List.find?_eq_none.mp absent row member (decide_eq_true mine)
  cases change with
  | prune | issue | invite | present | remove | operator =>
    exact ⟨same.revoked, same.accounts, same.authorised, same.enrolled⟩
  | consume key message signature now _ audience verified usable admitted =>
    refine ⟨same.revoked, same.accounts, ⟨[_], rfl, fun request member => ?_⟩, same.enrolled⟩
    obtain rfl := List.mem_singleton.mp member
    rintro ⟨row, listed, mine, revoked⟩
    have found := sound.installations.find listed
    rw [mine] at found
    exact absurd ((admitted row found).symm.trans revoked) Bool.false_ne_true
  | touch id now =>
    exact ⟨fun other held => held.change (fun _ => rfl) fun _ kept => kept, same.accounts, same.authorised, same.enrolled⟩
  | enrol key now _ absent | enrolInvited key code now _ absent =>
    refine ⟨fun id held => ?_, same.accounts, same.authorised, ⟨[_], rfl, fun entry member => ?_⟩⟩
    · obtain ⟨row, member, rest⟩ := held
      exact ⟨row, List.mem_append_left _ member, rest⟩
    · obtain rfl := List.mem_singleton.mp member
      exact absentRow _ absent
  | bind => exact ⟨same.revoked, fun row member => List.mem_append_left _ member, same.authorised, same.enrolled⟩
  | revoke id =>
    exact ⟨fun other held => held.change (fun _ => rfl) fun _ _ => rfl, same.accounts, same.authorised, same.enrolled⟩

theorem AuthorityChanges.sound (changes : AuthorityChanges runtime policy s t) (sound : s.Sound runtime policy) :
    t.Sound runtime policy ∧ s.Extends t := by
  induction changes with
  | refl => exact ⟨sound, .refl s⟩
  | tail _ change held => exact ⟨change.sound held.1, held.2.trans (change.keeps held.1)⟩

theorem sound_init (init : (authorityMachine runtime policy).Init s) : s.Sound runtime policy := by
  cases init
  exact ⟨⟨.nil, nofun, nofun, .nil, nofun, .nil⟩, ⟨nofun, nofun, nofun⟩, ⟨.nil, nofun, rfl⟩, ⟨nofun, nofun⟩, .nil,
    ⟨Nat.zero_le _, Nat.zero_le _, fun _ => Nat.zero_le _, Nat.zero_le _, Nat.zero_le _, fun _ => Nat.zero_le _⟩⟩

theorem sound_reachable (reached : Reachable (authorityMachine runtime policy) s) : s.Sound runtime policy :=
  reached.induction sound_init fun _ step sound => ((step_changes step).sound sound).1

theorem extends_run {events : List (AuthorityEvent Body)} (run : Run (authorityMachine runtime policy) s events t)
    (sound : s.Sound runtime policy) : s.Extends t := by
  induction run with
  | nil s => exact .refl s
  | cons step _ ih =>
    obtain ⟨later, moved⟩ := (step_changes step).sound sound
    exact moved.trans (ih later)

end Changes

/-- What the authority promises of a state. -/
structure AuthorityStore.Guarantees (runtime : AuthorityRuntime Body) (policy : AuthorityPolicy)
    (s : AuthorityStore Body) : Prop where
  issuedOnce : (s.issued.map AuthorityNonce.nonce).Nodup
  usedOnce : (s.authorised.map fun request => request.message.nonce).Nodup
  made : ∀ request ∈ s.authorised, request.Made runtime policy s.issued
  limits : s.WithinLimits policy.limits
  invites : ∀ code uses, (code, uses) ∈ s.invited → createdThrough code s.enrolled ≤ uses
  known : ∀ id code, (id, some code) ∈ s.enrolled → ∃ uses, (code, uses) ∈ s.invited
  entered : s.enrolled.map Prod.fst = (s.installations.map AuthorityInstallation.id).reverse
  revoked : ∀ row ∈ s.challenges, ¬ RevokedIn s.installations row.installationId
  bound : ∀ row ∈ s.accounts, ∀ other ∈ s.accounts, row.installationId = other.installationId →
    row.issuerId = other.issuerId → row = other
  named : ∀ row ∈ s.challenges, ∃ hostname, row.name = challengeName hostname ∧
    ((∃ address, lanHttpsHostname address policy.lanDomain = .ok hostname) ∨
      lanHttpsManagementHostname row.installationId policy.lanDomain = .ok hostname) ∧
    hostname ∉ operatorHostnames policy ∧
    ∀ id, lanHttpsManagementHostname id policy.lanDomain = .ok hostname → id = row.installationId

theorem AuthorityStore.Sound.guarantees {s : AuthorityStore Body} (sound : s.Sound runtime policy) :
    s.Guarantees runtime policy := by
  refine ⟨sound.nonces.issuedOnce, sound.nonces.usedOnce, sound.nonces.made, sound.limits, fun code uses listed => ?_,
    sound.invites.known, sound.installations.entered, fun row member held => ?_, fun row member other also same issuer =>
    List.inj_on_of_nodup_map sound.accounts member also (by simp [same, issuer]), fun row member => ?_⟩
  · have budget := sound.invites.budget code uses listed
    omega
  · obtain ⟨owner, listed, mine, unrevoked⟩ := sound.challenges.active row member
    obtain ⟨other, also, same, revoked⟩ := held
    obtain rfl := List.inj_on_of_nodup_map sound.installations.distinct listed also (mine.trans same.symm)
    exact absurd (unrevoked.symm.trans revoked) Bool.false_ne_true
  · obtain ⟨hostname, named, lower, allowed⟩ := sound.challenges.named row member
    refine ⟨hostname, named, ?_⟩
    rcases allowed with own | ⟨address, accepted⟩
    · exact ⟨.inr own, managementHostname_reserved own, fun id other => managementHostname_injective other own⟩
    · obtain ⟨normalized, label, -, -, -, encoded, spelled⟩ := lanHttpsAddress_eq accepted
      have reserved := lanHttpsAddress_reserved accepted
      rw [← lower] at spelled reserved
      exact ⟨.inl ⟨encoded, spelled⟩, reserved, fun id other =>
        (lanHttpsAddress_management accepted (lower ▸ other)).elim⟩

/-- A committed revocation of an installation that is enrolled. -/
theorem revokeInstallation_revoked {s t : AuthorityStore Body} {id : InstallationId} {clock : Option Timestamp}
    {result : AuthorityResult} (sound : s.Sound runtime policy) (known : id ∈ s.enrolled.map Prod.fst)
    (done : revokeInstallation (some id) clock s = .ok (result, t)) :
    RevokedIn t.installations id ∧ ∀ row ∈ t.challenges, row.installationId ≠ id := by
  obtain ⟨_, same, done⟩ := obtain?_bind_eq_ok.mp done
  cases same
  obtain ⟨now, -, acted⟩ := transaction_eq_ok.mp done
  cases acted
  rw [sound.installations.entered, List.mem_reverse] at known
  obtain ⟨row, member, mine⟩ := List.mem_map.mp known
  refine ⟨⟨_, List.mem_map_of_mem member, ?_⟩, fun row member => of_decide_eq_true (List.mem_filter.mp member).2⟩
  rw [if_pos mine]
  exact ⟨mine, rfl⟩

/-- In every state that calls of the authority lead to, some of them rolled back: a nonce was used at most once,
by the installation that it was issued to and before it expired, nothing is over its limit, an invite gave at
most its uses, no revoked installation has a challenge, an installation has one key with an issuer, and the
name of a challenge is a LAN name or the management hostname of its own installation and none that the operator
reserves. Later calls take back no revocation and no bound key, and commit nothing of a revoked installation. A committed
revocation of an enrolled installation revokes it and removes its challenges. Management hostnames differ, and none of them
is reserved. -/
theorem authority_store {s : AuthorityStore Body} (reached : Reachable (authorityMachine runtime policy) s) :
    s.Guarantees runtime policy ∧
      (∀ events t, Run (authorityMachine runtime policy) s events t → s.Extends t) ∧
      (∀ id clock result t, id ∈ s.enrolled.map Prod.fst → revokeInstallation (some id) clock s = .ok (result, t) →
        RevokedIn t.installations id ∧ ∀ row ∈ t.challenges, row.installationId ≠ id) ∧
      ∀ id other hostname, lanHttpsManagementHostname id policy.lanDomain = .ok hostname →
        hostname ∉ operatorHostnames policy ∧
        (lanHttpsManagementHostname other policy.lanDomain = .ok hostname → id = other) :=
  ⟨(sound_reachable reached).guarantees, fun _ _ run => extends_run run (sound_reachable reached),
    fun _ _ _ _ => revokeInstallation_revoked (sound_reachable reached),
    fun _ _ _ named => ⟨managementHostname_reserved named, managementHostname_injective named⟩⟩

section Example

/-- A secret. -/
def exampleNonce : Text := List.replicate 43 'A'

/-- Everything verifies, the identity of an installation is its key, and all have one invite. -/
def exampleRuntime : AuthorityRuntime PublicKey where
  toLowerCase name := name.map Char.toLower
  installationId key := key
  verify _ _ _ := true
  enrollBody key := some ⟨some key, .text exampleNonce⟩
  bindBody _ := none
  keylessBody _ _ := none
  presentBody _ := some ⟨some "192-168-1-2.l.t".toList, some exampleNonce⟩
  removeBody _ := none

/-- Registration by invite below one domain. -/
def examplePolicy : AuthorityPolicy where
  serverOrigin := ['o']
  apiHostname := ['a']
  lanDomain := ['l', '.', 't']
  registration := .invite
  limits := lanHttpsAuthorityDefaults
  normalized := by decide

/-- The proof of an installation with a nonce that begins with this letter. -/
def exampleProof (id : InstallationId) (letter : Char) : AuthorityProof :=
  ⟨id, letter :: List.replicate 42 'A', List.replicate 86 'A'⟩

/-- Two installations enroll by an invite, one has a challenge presented, and the other one is revoked. -/
def exampleEvents : List (AuthorityEvent PublicKey) :=
  [⟨.createInvite 3 1000 exampleNonce, some 1, false⟩,
    ⟨.issueNonce (some 7) (exampleProof 7 'A').nonce, some 2, false⟩, ⟨.enroll 7 (some (exampleProof 7 'A')), some 3, false⟩,
    ⟨.issueNonce (some 8) (exampleProof 8 'B').nonce, some 4, false⟩, ⟨.enroll 8 (some (exampleProof 8 'B')), some 5, false⟩,
    ⟨.issueNonce (some 8) (exampleProof 8 'C').nonce, some 6, false⟩,
    ⟨.presentChallenge 8 (some (exampleProof 8 'C')) ['c'], some 7, false⟩, ⟨.revokeInstallation (some 7), some 8, false⟩]

/-- The store after that. -/
def exampleStore : AuthorityStore PublicKey :=
  exampleEvents.foldl (fun s event => event.next exampleRuntime examplePolicy s) ⟨[], [], [], [], [], [], [], [], [], []⟩

theorem exampleStore_reachable : Reachable (authorityMachine exampleRuntime examplePolicy) exampleStore := by
  refine ⟨_, exampleEvents, rfl, .cons ⟨?_, rfl⟩ <| .cons ⟨?_, rfl⟩ <| .cons ⟨trivial, rfl⟩ <| .cons ⟨?_, rfl⟩ <|
    .cons ⟨trivial, rfl⟩ <| .cons ⟨?_, rfl⟩ <| .cons ⟨trivial, rfl⟩ <| .cons ⟨trivial, rfl⟩ <| .nil _⟩
  · exact nofun
  · exact nofun
  · unfold AuthorityCall.Fresh
    decide
  · unfold AuthorityCall.Fresh
    decide

/-- A store with a revoked installation, a challenge of the other one and an invite that was used twice. -/
theorem authority_store_revoked : exampleStore.Guarantees exampleRuntime examplePolicy ∧
    (∀ events t, Run (authorityMachine exampleRuntime examplePolicy) exampleStore events t → exampleStore.Extends t) ∧
    RevokedIn exampleStore.installations 7 ∧ exampleStore.challenges.map AuthorityChallenge.installationId = [8] ∧
    exampleStore.invites.map AuthorityInvite.remaining = [1] ∧ createdThrough exampleNonce exampleStore.enrolled = 2 := by
  obtain ⟨guarantees, extended, -⟩ := authority_store exampleStore_reachable
  refine ⟨guarantees, extended, ?_, by decide, by decide, by decide⟩
  unfold RevokedIn
  decide

end Example

end LatexRenderer
