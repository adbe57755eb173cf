import Mathlib.Logic.Relation
import LatexRenderer.Deploy.AuthorityNames

/-! # What a call of the authority changes

Every committed call is a sequence of a few changes, each of one table under the condition that the call
has checked. The calls are taken apart here once; what holds of the store is then shown for one change.
-/

namespace LatexRenderer

open Machine

variable {Body : Type}

/-- The installation is there and is not revoked. -/
def AuthorityStore.Active (s : AuthorityStore Body) (id : InstallationId) : Prop :=
  ∃ row, s.installation id = some row ∧ row.revoked = false

/-- The hostname is an accepted LAN name in lower case, or the management hostname of the installation. -/
def AllowedHostname (runtime : AuthorityRuntime Body) (policy : AuthorityPolicy) (id : InstallationId)
    (hostname : Text) : Prop :=
  hostname = runtime.toLowerCase hostname ∧
    (lanHttpsManagementHostname id policy.lanDomain = .ok hostname ∨
      ∃ address, lanHttpsAddress runtime.toLowerCase hostname policy.lanDomain = .ok address)

/-- One change of the store, with what was checked before it. -/
inductive AuthorityChange (runtime : AuthorityRuntime Body) (policy : AuthorityPolicy) :
    AuthorityStore Body → AuthorityStore Body → Prop
  | prune (now : Timestamp) (s : AuthorityStore Body) : AuthorityChange runtime policy s (s.prune now)
  | issue (nonce : Text) (id : InstallationId) (expiresAt : Timestamp) (s : AuthorityStore Body)
      (total : s.nonces.length < policy.limits.maxNonces)
      (own : s.noncesOf id < policy.limits.maxNoncesPerInstallation)
      (fresh : ∀ row ∈ s.issued, row.nonce ≠ nonce) :
      AuthorityChange runtime policy s { s with
        nonces := s.nonces ++ [⟨nonce, id, expiresAt⟩]
        issued := ⟨nonce, id, expiresAt⟩ :: s.issued }
  | consume (key : PublicKey) (message : AuthorityMessage Body) (signature : Text) (now : Timestamp)
      (s : AuthorityStore Body) (audience : message.audience = policy.serverOrigin)
      (verified : runtime.verify key message signature = true)
      (usable : ∃ row ∈ s.nonces, row.usable message.nonce (runtime.installationId key) now = true)
      (admitted : ∀ row, s.installation (runtime.installationId key) = some row → row.revoked = false) :
      AuthorityChange runtime policy s { s with
        nonces := s.nonces.filter fun row => !row.usable message.nonce (runtime.installationId key) now
        authorised := ⟨runtime.installationId key, key, message, signature, now⟩ :: s.authorised }
  | touch (id : InstallationId) (now : Timestamp) (s : AuthorityStore Body) :
      AuthorityChange runtime policy s (s.setInstallation id fun row => { row with lastSeen := now })
  | enrol (key : PublicKey) (now : Timestamp) (s : AuthorityStore Body)
      (absent : s.installation (runtime.installationId key) = none)
      (total : s.installations.length < policy.limits.maxInstallations) :
      AuthorityChange runtime policy s { s with
        installations := s.installations ++ [⟨runtime.installationId key, key, now, now, false⟩]
        enrolled := (runtime.installationId key, none) :: s.enrolled }
  | enrolInvited (key : PublicKey) (code : Text) (now : Timestamp) (s : AuthorityStore Body)
      (absent : s.installation (runtime.installationId key) = none)
      (total : s.installations.length < policy.limits.maxInstallations)
      (invited : ∃ row ∈ s.invites, row.code = code ∧ now < row.expiresAt ∧ 0 < row.remaining) :
      AuthorityChange runtime policy s { s with
        invites := s.invites.map (AuthorityInvite.use code now)
        installations := s.installations ++ [⟨runtime.installationId key, key, now, now, false⟩]
        enrolled := (runtime.installationId key, some code) :: s.enrolled }
  | invite (code : Text) (uses : Nat) (expiresAt : Timestamp) (s : AuthorityStore Body)
      (total : s.invites.length < policy.limits.maxInvites) (fresh : ∀ row ∈ s.invited, row.1 ≠ code) :
      AuthorityChange runtime policy s { s with
        invites := s.invites ++ [⟨code, expiresAt, uses⟩]
        invited := (code, uses) :: s.invited }
  | bind (id : InstallationId) (issuer : Text) (key : AcmeKey) (now : Timestamp) (s : AuthorityStore Body)
      (absent : s.account id issuer = none) :
      AuthorityChange runtime policy s { s with accounts := s.accounts ++ [⟨id, issuer, key, now⟩] }
  | present (challengeId : Text) (id : InstallationId) (hostname value : Text) (expiresAt : Timestamp)
      (s : AuthorityStore Body) (active : s.Active id) (allowed : AllowedHostname runtime policy id hostname)
      (total : s.challenges.length < policy.limits.maxChallenges)
      (own : s.challengesOf id < policy.limits.maxChallengesPerInstallation) :
      AuthorityChange runtime policy s { s with
        challenges := s.challenges ++ [⟨challengeId, id, challengeName hostname, value, expiresAt⟩] }
  | remove (keep : AuthorityChallenge → Bool) (s : AuthorityStore Body) :
      AuthorityChange runtime policy s { s with challenges := s.challenges.filter keep }
  | operator (rows : List OperatorChallenge) (s : AuthorityStore Body) :
      AuthorityChange runtime policy s { s with operatorChallenges := rows }
  | revoke (id : InstallationId) (s : AuthorityStore Body) :
      AuthorityChange runtime policy s { s.setInstallation id fun row => { row with revoked := true } with
        nonces := s.nonces.filter fun row => row.installationId ≠ id
        challenges := s.challenges.filter fun row => row.installationId ≠ id }

/-- Some changes, one after another. -/
abbrev AuthorityChanges (runtime : AuthorityRuntime Body) (policy : AuthorityPolicy) :
    AuthorityStore Body → AuthorityStore Body → Prop :=
  Relation.ReflTransGen (AuthorityChange runtime policy)

section Calls

variable {runtime : AuthorityRuntime Body} {policy : AuthorityPolicy} {clock : Option Timestamp}
  {s t : AuthorityStore Body} {result : AuthorityResult}

theorem transaction_eq_ok {α : Type} {value : α}
    {action : Timestamp → AuthorityStore Body → Except AuthorityError (α × AuthorityStore Body)} :
    s.transaction clock action = .ok (value, t) ↔
      ∃ now, clock = some now ∧ action now (s.prune now) = .ok (value, t) := by
  unfold AuthorityStore.transaction
  exact obtain?_bind_eq_ok

/-- A committed transaction is a prune and what its action changes. -/
theorem transaction_changes {action : Timestamp → AuthorityTransaction Body}
    (done : s.transaction clock action = .ok (result, t))
    (changes : ∀ now, action now (s.prune now) = .ok (result, t) →
      AuthorityChanges runtime policy (s.prune now) t) : AuthorityChanges runtime policy s t := by
  obtain ⟨now, -, acted⟩ := transaction_eq_ok.mp done
  exact .head (.prune now s) (changes now acted)

theorem gc_changes (done : s.gc clock = .ok (result, t)) : AuthorityChanges runtime policy s t := by
  refine transaction_changes done fun now acted => ?_
  cases acted
  exact .refl

theorem issueNonce_changes {publicKey : Option PublicKey} {nonce : Text}
    (fresh : AuthorityCall.Fresh s (.issueNonce publicKey nonce))
    (done : issueNonce runtime policy publicKey nonce clock s = .ok (result, t)) :
    AuthorityChanges runtime policy s t := by
  obtain ⟨key, -, done⟩ := obtain?_bind_eq_ok.mp done
  refine transaction_changes done fun now acted => ?_
  obtain ⟨⟨total, own⟩, acted⟩ := demand_bind_eq_ok.mp acted
  obtain ⟨-, acted⟩ := demand_bind_eq_ok.mp acted
  cases acted
  exact .single (.issue nonce _ _ _ total own fresh)

theorem createInvite_changes {uses ttlMs : Nat} {code : Text}
    (fresh : AuthorityCall.Fresh s (.createInvite uses ttlMs code))
    (done : createInvite policy uses ttlMs code clock s = .ok (result, t)) :
    AuthorityChanges runtime policy s t := by
  obtain ⟨-, done⟩ := demand_bind_eq_ok.mp done
  obtain ⟨-, done⟩ := demand_bind_eq_ok.mp done
  refine transaction_changes done fun now acted => ?_
  obtain ⟨total, acted⟩ := demand_bind_eq_ok.mp acted
  obtain ⟨-, acted⟩ := demand_bind_eq_ok.mp acted
  cases acted
  exact .single (.invite code uses _ _ total fresh)

/-- A consumed nonce: who is authenticated, and what is left. -/
theorem consumeNonce_eq_ok {key : PublicKey} {proof : Option AuthorityProof} {path : Text} {body : Body}
    {now : Timestamp} {id : InstallationId} (done : consumeNonce runtime policy key proof path body now s = .ok (id, t)) :
    id = runtime.installationId key ∧ t.installations = s.installations ∧
      (∀ claimed, proof = some claimed → claimed.installationId = id) ∧
      ((∀ row, s.installation id = some row → row.revoked = false) → AuthorityChange runtime policy s t) := by
  obtain ⟨claimed, rfl, done⟩ := obtain?_bind_eq_ok.mp done
  obtain ⟨verified, done⟩ := demand_bind_eq_ok.mp done
  obtain ⟨one, done⟩ := demand_bind_eq_ok.mp done
  cases done
  unfold verifyLanHttpsProof at verified
  simp only [Bool.and_eq_true, decide_eq_true_eq] at verified
  obtain ⟨⟨⟨⟨same, -⟩, -⟩, -⟩, verified⟩ := verified
  refine ⟨rfl, rfl, ?_, fun admitted => ?_⟩
  · rintro _ ⟨⟩
    exact same
  · have usable := List.countP_pos_iff.mp (Nat.lt_of_lt_of_eq Nat.one_pos one.symm)
    exact .consume key _ claimed.signature now s rfl verified usable admitted

theorem installation_of_same {id : InstallationId} (same : t.installations = s.installations) :
    t.installation id = s.installation id := by
  unfold AuthorityStore.installation
  rw [same]

theorem enroll_changes {body : Body} {proof : Option AuthorityProof}
    (done : enroll runtime policy body proof clock s = .ok (result, t)) : AuthorityChanges runtime policy s t := by
  obtain ⟨input, -, done⟩ := obtain?_bind_eq_ok.mp done
  obtain ⟨key, -, done⟩ := obtain?_bind_eq_ok.mp done
  refine transaction_changes done fun now acted => ?_
  obtain ⟨⟨id, u⟩, consumed, acted⟩ := bind_eq_ok.mp acted
  obtain ⟨rfl, same, -, change⟩ := consumeNonce_eq_ok consumed
  dsimp only at acted
  cases there : u.installation (runtime.installationId key) with
  | some existing =>
    rw [there] at acted
    obtain ⟨⟨unrevoked, -⟩, acted⟩ := demand_bind_eq_ok.mp acted
    cases acted
    refine .head (change fun row found => ?_) (.single (.touch _ now u))
    rw [← installation_of_same same, there] at found
    exact Option.some.inj found ▸ unrevoked
  | none =>
    rw [there] at acted
    obtain ⟨total, acted⟩ := demand_bind_eq_ok.mp acted
    obtain ⟨⟨code, v⟩, used, acted⟩ := bind_eq_ok.mp acted
    cases acted
    have admitted : ∀ row, (s.prune now).installation (runtime.installationId key) = some row →
        row.revoked = false := by
      intro row found
      rw [← installation_of_same same, there] at found
      cases found
    refine .head (change admitted) ?_
    unfold useInvitation at used
    split at used
    · cases used
      exact .single (.enrol key now u there total)
    · cases used
    · obtain ⟨-, used⟩ := demand_bind_eq_ok.mp used
      obtain ⟨one, used⟩ := demand_bind_eq_ok.mp used
      cases used
      obtain ⟨row, member, invited⟩ := List.countP_pos_iff.mp (Nat.lt_of_lt_of_eq Nat.one_pos one.symm)
      exact .single (.enrolInvited key _ now u there total ⟨row, member, of_decide_eq_true invited⟩)
    · cases used

/-- An authenticated call: the nonce, the change of the call, and the time. -/
theorem authenticated_changes {proof : Option AuthorityProof} {path : Text} {body : Body}
    {action : InstallationId → Timestamp → AuthorityTransaction Body}
    (done : authenticated runtime policy proof path body action clock s = .ok (result, t))
    (changes : ∀ id now u v, u.Active id → action id now u = .ok (result, v) → AuthorityChanges runtime policy u v) :
    AuthorityChanges runtime policy s t := by
  refine transaction_changes done fun now acted => ?_
  obtain ⟨claimed, given, acted⟩ := obtain?_bind_eq_ok.mp acted
  obtain ⟨row, found, acted⟩ := obtain?_bind_eq_ok.mp acted
  obtain ⟨unrevoked, acted⟩ := demand_bind_eq_ok.mp acted
  obtain ⟨⟨id, u⟩, consumed, acted⟩ := bind_eq_ok.mp acted
  obtain ⟨⟨result', v⟩, changed, acted⟩ := bind_eq_ok.mp acted
  cases acted
  obtain ⟨-, same, claims, change⟩ := consumeNonce_eq_ok consumed
  obtain rfl : claimed.installationId = id := claims claimed given
  have active : u.Active claimed.installationId := ⟨row, (installation_of_same same).trans found, unrevoked⟩
  refine .head (change fun other also => ?_) ((changes _ now u v active changed).tail (.touch _ now v))
  exact Option.some.inj (found.symm.trans also) ▸ unrevoked

theorem bindAcmeAccount_changes {body : Body} {proof : Option AuthorityProof} {issuer : AuthorityIssuer}
    (done : bindAcmeAccount runtime policy body proof issuer clock s = .ok (result, t)) :
    AuthorityChanges runtime policy s t := by
  obtain ⟨input, -, done⟩ := obtain?_bind_eq_ok.mp done
  obtain ⟨name, -, done⟩ := obtain?_bind_eq_ok.mp done
  obtain ⟨-, done⟩ := demand_bind_eq_ok.mp done
  obtain ⟨key, -, done⟩ := obtain?_bind_eq_ok.mp done
  refine authenticated_changes done fun id now u v _ acted => ?_
  obtain ⟨w, stored, acted⟩ := bind_eq_ok.mp acted
  have same : v = w := by
    split at acted
    · cases acted
      rfl
    · cases acted
  subst same
  unfold bindAccountKey at stored
  split at stored
  · obtain ⟨-, stored⟩ := demand_bind_eq_ok.mp stored
    cases stored
    exact .refl
  · next absent =>
    obtain ⟨-, stored⟩ := demand_bind_eq_ok.mp stored
    cases stored
    exact .single (.bind id name key now u absent)

theorem authorizeKeyless_changes {body : Body} {proof : Option AuthorityProof} {signing : Bool}
    (done : authorizeKeyless runtime policy body proof signing clock s = .ok (result, t)) :
    AuthorityChanges runtime policy s t := by
  obtain ⟨input, -, done⟩ := obtain?_bind_eq_ok.mp done
  obtain ⟨-, done⟩ := demand_bind_eq_ok.mp done
  obtain ⟨-, done⟩ := demand_bind_eq_ok.mp done
  refine authenticated_changes done fun id now u v _ acted => ?_
  cases acted
  exact .refl

theorem authorizeHostname_eq_ok {id : InstallationId} {hostname : Text}
    (done : authorizeHostname runtime policy id hostname = .ok ()) : AllowedHostname runtime policy id hostname := by
  obtain ⟨own, named, done⟩ := bind_eq_ok.mp done
  obtain ⟨either, done⟩ := demand_bind_eq_ok.mp done
  obtain ⟨lower, -⟩ := demand_eq_ok.mp done
  refine ⟨lower, either.imp (fun same => ?_) fun accepted => ?_⟩
  · subst same
    unfold managementHostname at named
    split at named
    · next found =>
      cases named
      exact found
    · cases named
    · cases named
  · cases checked : lanHttpsAddress runtime.toLowerCase hostname policy.lanDomain with
    | ok address => exact ⟨address, rfl⟩
    | error error =>
      rw [checked] at accepted
      cases accepted

theorem presentChallenge_changes {body : Body} {proof : Option AuthorityProof} {challengeId : Text}
    (done : presentChallenge runtime policy body proof challengeId clock s = .ok (result, t)) :
    AuthorityChanges runtime policy s t := by
  obtain ⟨input, -, done⟩ := obtain?_bind_eq_ok.mp done
  obtain ⟨hostname, -, done⟩ := obtain?_bind_eq_ok.mp done
  obtain ⟨value, -, done⟩ := obtain?_bind_eq_ok.mp done
  obtain ⟨-, done⟩ := demand_bind_eq_ok.mp done
  refine authenticated_changes done fun id now u v active acted => ?_
  obtain ⟨_, allowed, acted⟩ := bind_eq_ok.mp acted
  dsimp only at acted
  split at acted
  · cases acted
    exact .refl
  · obtain ⟨⟨total, own⟩, acted⟩ := demand_bind_eq_ok.mp acted
    obtain ⟨-, acted⟩ := demand_bind_eq_ok.mp acted
    cases acted
    exact .single (.present challengeId id hostname value _ u active (authorizeHostname_eq_ok allowed) total own)

theorem removeChallenge_changes {body : Body} {proof : Option AuthorityProof}
    (done : removeChallenge runtime policy body proof clock s = .ok (result, t)) :
    AuthorityChanges runtime policy s t := by
  obtain ⟨input, -, done⟩ := obtain?_bind_eq_ok.mp done
  obtain ⟨challengeId, -, done⟩ := obtain?_bind_eq_ok.mp done
  obtain ⟨-, done⟩ := demand_bind_eq_ok.mp done
  refine authenticated_changes done fun id now u v _ acted => ?_
  cases acted
  exact .single (.remove _ u)

theorem operatorChallenge_changes {hostname : Text} {value : Option Text} {remove : Bool}
    (done : operatorChallenge policy hostname value remove clock s = .ok (result, t)) :
    AuthorityChanges runtime policy s t := by
  obtain ⟨target, -, done⟩ := obtain?_bind_eq_ok.mp done
  obtain ⟨value, -, done⟩ := obtain?_bind_eq_ok.mp done
  obtain ⟨-, done⟩ := demand_bind_eq_ok.mp done
  refine transaction_changes done fun now acted => ?_
  dsimp only at acted
  split at acted
  · cases acted
    exact .single (.operator _ (s.prune now))
  split at acted
  · cases acted
    exact .refl
  · obtain ⟨-, acted⟩ := demand_bind_eq_ok.mp acted
    cases acted
    exact .single (.operator _ (s.prune now))

theorem revokeInstallation_changes {id : Option InstallationId}
    (done : revokeInstallation id clock s = .ok (result, t)) : AuthorityChanges runtime policy s t := by
  obtain ⟨id, -, done⟩ := obtain?_bind_eq_ok.mp done
  refine transaction_changes done fun now acted => ?_
  cases acted
  exact .single (.revoke id (s.prune now))

theorem perform_changes {call : AuthorityCall Body} (fresh : call.Fresh s)
    (done : call.perform runtime policy clock s = .ok (result, t)) : AuthorityChanges runtime policy s t := by
  cases call with
  | gc => exact gc_changes done
  | issueNonce publicKey nonce => exact issueNonce_changes fresh done
  | enroll body proof => exact enroll_changes done
  | createInvite uses ttlMs code => exact createInvite_changes fresh done
  | bindAcmeAccount body proof issuer => exact bindAcmeAccount_changes done
  | authorizeKeyless body proof signing => exact authorizeKeyless_changes done
  | presentChallenge body proof challengeId => exact presentChallenge_changes done
  | removeChallenge body proof => exact removeChallenge_changes done
  | operatorChallenge hostname value remove => exact operatorChallenge_changes done
  | revokeInstallation id => exact revokeInstallation_changes done

/-- A step of the authority is a sequence of changes; a call that rolls back is none. -/
theorem step_changes {event : AuthorityEvent Body} (step : (authorityMachine runtime policy).Step s event t) :
    AuthorityChanges runtime policy s t := by
  obtain ⟨fresh, rfl⟩ := step
  unfold AuthorityEvent.next
  split
  · next done => exact perform_changes fresh done
  · exact .refl

end Calls

end LatexRenderer
