import LatexRenderer.Deploy.AuthorityStore
import LatexRenderer.Deploy.ChallengeNames
import LatexRenderer.Model.Deploy.ChallengeValues

/-! # Challenges that are served

The DNS responder asks the store of the authority for the values of a name. In every state that calls of the authority
lead to, each name with values is recognised and its reply over TCP is a success with these values; all of them are in it
exactly when they fit.
-/

namespace LatexRenderer

open Machine

section Rows

variable {Body : Type} {runtime : AuthorityRuntime Body} {policy : AuthorityPolicy} {clock : Option Timestamp}
  {s t : AuthorityStore Body} {result : AuthorityResult}

/-- What holds of the rows of challenges besides the rules of the authority. -/
structure AuthorityStore.Presentable (policy : AuthorityPolicy) (s : AuthorityStore Body) : Prop where
  digests : ∀ row ∈ s.challenges, strictBase64Url 32 row.value = true
  short : ∀ row ∈ s.challenges, row.name.length ≤ 253
  operators : ∀ row ∈ s.operatorChallenges, strictBase64Url 32 row.value = true ∧
    ∃ hostname ∈ operatorHostnames policy, row.name = challengeName hostname
  few : s.operatorChallenges.length ≤ 4

theorem AuthorityStore.Presentable.fewer (sound : s.Presentable policy) (rows : t.challenges.Sublist s.challenges)
    (operators : t.operatorChallenges.Sublist s.operatorChallenges) : t.Presentable policy where
  digests row member := sound.digests row (rows.subset member)
  short row member := sound.short row (rows.subset member)
  operators row member := sound.operators row (operators.subset member)
  few := operators.length_le.trans sound.few

theorem AuthorityStore.Presentable.prune (sound : s.Presentable policy) (now : Timestamp) :
    (s.prune now).Presentable policy :=
  sound.fewer List.filter_sublist List.filter_sublist

theorem transaction_presentable {action : Timestamp → AuthorityTransaction Body} (sound : s.Presentable policy)
    (done : s.transaction clock action = .ok (result, t))
    (keeps : ∀ now u, u.Presentable policy → action now u = .ok (result, t) → t.Presentable policy) :
    t.Presentable policy := by
  obtain ⟨now, -, acted⟩ := transaction_eq_ok.mp done
  exact keeps now _ (sound.prune now) acted

theorem consumeNonce_rows {key : PublicKey} {proof : Option AuthorityProof} {path : Text} {body : Body}
    {now : Timestamp} {id : InstallationId} (done : consumeNonce runtime policy key proof path body now s = .ok (id, t)) :
    t.challenges = s.challenges ∧ t.operatorChallenges = s.operatorChallenges := by
  obtain ⟨claimed, -, done⟩ := obtain?_bind_eq_ok.mp done
  obtain ⟨-, done⟩ := demand_bind_eq_ok.mp done
  obtain ⟨-, done⟩ := demand_bind_eq_ok.mp done
  cases done
  exact ⟨rfl, rfl⟩

theorem useInvitation_rows {field : InvitationField} {now : Timestamp} {code : Option Text}
    (used : useInvitation policy field now s = .ok (code, t)) :
    t.challenges = s.challenges ∧ t.operatorChallenges = s.operatorChallenges := by
  unfold useInvitation at used
  split at used
  · cases used
    exact ⟨rfl, rfl⟩
  · cases used
  · obtain ⟨-, used⟩ := demand_bind_eq_ok.mp used
    obtain ⟨-, used⟩ := demand_bind_eq_ok.mp used
    cases used
    exact ⟨rfl, rfl⟩
  · cases used

theorem AuthorityStore.Presentable.same (sound : s.Presentable policy) (rows : t.challenges = s.challenges)
    (operators : t.operatorChallenges = s.operatorChallenges) : t.Presentable policy :=
  sound.fewer (rows ▸ List.Sublist.refl _) (operators ▸ List.Sublist.refl _)

/-- An authenticated call keeps what its action keeps. -/
theorem authenticated_presentable {proof : Option AuthorityProof} {path : Text} {body : Body}
    {action : InstallationId → Timestamp → AuthorityTransaction Body} (sound : s.Presentable policy)
    (done : authenticated runtime policy proof path body action clock s = .ok (result, t))
    (keeps : ∀ id now u v, u.Presentable policy → action id now u = .ok (result, v) → v.Presentable policy) :
    t.Presentable policy := by
  refine transaction_presentable sound done fun now u pruned acted => ?_
  obtain ⟨claimed, -, acted⟩ := obtain?_bind_eq_ok.mp acted
  obtain ⟨row, -, acted⟩ := obtain?_bind_eq_ok.mp acted
  obtain ⟨-, acted⟩ := demand_bind_eq_ok.mp acted
  obtain ⟨⟨id, v⟩, consumed, acted⟩ := bind_eq_ok.mp acted
  obtain ⟨⟨result', w⟩, changed, acted⟩ := bind_eq_ok.mp acted
  cases acted
  obtain ⟨rows, operators⟩ := consumeNonce_rows consumed
  exact (keeps _ now v w (pruned.same rows operators) changed).same rfl rfl

theorem enroll_presentable {body : Body} {proof : Option AuthorityProof} (sound : s.Presentable policy)
    (done : enroll runtime policy body proof clock s = .ok (result, t)) : t.Presentable policy := by
  obtain ⟨input, -, done⟩ := obtain?_bind_eq_ok.mp done
  obtain ⟨key, -, done⟩ := obtain?_bind_eq_ok.mp done
  refine transaction_presentable sound done fun now u pruned acted => ?_
  obtain ⟨⟨id, v⟩, consumed, acted⟩ := bind_eq_ok.mp acted
  obtain ⟨rows, operators⟩ := consumeNonce_rows consumed
  have kept := pruned.same rows operators
  dsimp only at acted
  split at acted
  · obtain ⟨-, acted⟩ := demand_bind_eq_ok.mp acted
    cases acted
    exact kept.same rfl rfl
  · obtain ⟨-, acted⟩ := demand_bind_eq_ok.mp acted
    obtain ⟨⟨code, w⟩, used, acted⟩ := bind_eq_ok.mp acted
    cases acted
    obtain ⟨rows, operators⟩ := useInvitation_rows used
    exact kept.same rows operators

theorem bindAcmeAccount_presentable {body : Body} {proof : Option AuthorityProof} {issuer : AuthorityIssuer}
    (sound : s.Presentable policy) (done : bindAcmeAccount runtime policy body proof issuer clock s = .ok (result, t)) :
    t.Presentable policy := by
  obtain ⟨input, -, done⟩ := obtain?_bind_eq_ok.mp done
  obtain ⟨name, -, done⟩ := obtain?_bind_eq_ok.mp done
  obtain ⟨-, done⟩ := demand_bind_eq_ok.mp done
  obtain ⟨key, -, done⟩ := obtain?_bind_eq_ok.mp done
  refine authenticated_presentable sound done fun id now u v kept acted => ?_
  obtain ⟨w, stored, acted⟩ := bind_eq_ok.mp acted
  have same : v = w := by
    split at acted
    · cases acted
      rfl
    · cases acted
  subst same
  unfold bindAccountKey at stored
  split at stored
  · obtain ⟨-, stored⟩ := demand_bind_eq_ok.mp stored
    cases stored
    exact kept
  · obtain ⟨-, stored⟩ := demand_bind_eq_ok.mp stored
    cases stored
    exact kept.same rfl rfl

theorem presentChallenge_presentable {body : Body} {proof : Option AuthorityProof} {challengeId : Text}
    (sound : s.Presentable policy) (done : presentChallenge runtime policy body proof challengeId clock s = .ok (result, t)) :
    t.Presentable policy := by
  obtain ⟨input, -, done⟩ := obtain?_bind_eq_ok.mp done
  obtain ⟨hostname, -, done⟩ := obtain?_bind_eq_ok.mp done
  obtain ⟨value, -, done⟩ := obtain?_bind_eq_ok.mp done
  obtain ⟨digest, done⟩ := demand_bind_eq_ok.mp done
  refine authenticated_presentable sound done fun id now u v kept acted => ?_
  obtain ⟨_, allowed, acted⟩ := bind_eq_ok.mp acted
  obtain ⟨own, -, allowed⟩ := bind_eq_ok.mp allowed
  obtain ⟨-, allowed⟩ := demand_bind_eq_ok.mp allowed
  obtain ⟨-, short⟩ := demand_eq_ok.mp allowed
  dsimp only at acted
  split at acted
  · cases acted
    exact kept
  · obtain ⟨-, acted⟩ := demand_bind_eq_ok.mp acted
    obtain ⟨-, acted⟩ := demand_bind_eq_ok.mp acted
    cases acted
    refine ⟨fun row member => ?_, fun row member => ?_, kept.operators, kept.few⟩
    · rcases List.mem_append.mp member with before | new
      · exact kept.digests row before
      · obtain rfl := List.mem_singleton.mp new
        exact digest
    · rcases List.mem_append.mp member with before | new
      · exact kept.short row before
      · obtain rfl := List.mem_singleton.mp new
        dsimp only
        rw [length_challengeName]
        exact short

theorem operatorChallenge_presentable {hostname : Text} {value : Option Text} {remove : Bool}
    (sound : s.Presentable policy) (done : operatorChallenge policy hostname value remove clock s = .ok (result, t)) :
    t.Presentable policy := by
  obtain ⟨target, reserved, done⟩ := obtain?_bind_eq_ok.mp done
  obtain ⟨value, -, done⟩ := obtain?_bind_eq_ok.mp done
  obtain ⟨digest, done⟩ := demand_bind_eq_ok.mp done
  have listed : target ∈ operatorHostnames policy := by
    unfold operatorTarget at reserved
    split at reserved
    · cases reserved
      exact List.mem_cons_self
    · split at reserved
      · cases reserved
        exact List.mem_cons_of_mem _ List.mem_cons_self
      · cases reserved
  refine transaction_presentable sound done fun now u kept acted => ?_
  dsimp only at acted
  split at acted
  · cases acted
    exact kept.fewer (List.Sublist.refl _) List.filter_sublist
  split at acted
  · cases acted
    exact kept
  · obtain ⟨room, acted⟩ := demand_bind_eq_ok.mp acted
    cases acted
    refine ⟨kept.digests, kept.short, fun row member => ?_, ?_⟩
    · rcases List.mem_append.mp member with before | new
      · exact kept.operators row before
      · obtain rfl := List.mem_singleton.mp new
        exact ⟨digest, target, listed, rfl⟩
    · rw [List.length_append, List.length_singleton]
      omega

theorem perform_presentable {call : AuthorityCall Body} (sound : s.Presentable policy)
    (done : call.perform runtime policy clock s = .ok (result, t)) : t.Presentable policy := by
  cases call with
  | gc =>
    have done : s.gc clock = .ok (result, t) := done
    refine transaction_presentable sound done fun now u kept acted => ?_
    cases acted
    exact kept
  | issueNonce publicKey nonce =>
    obtain ⟨key, -, done⟩ := obtain?_bind_eq_ok.mp done
    refine transaction_presentable sound done fun now u kept acted => ?_
    obtain ⟨-, acted⟩ := demand_bind_eq_ok.mp acted
    obtain ⟨-, acted⟩ := demand_bind_eq_ok.mp acted
    cases acted
    exact kept.same rfl rfl
  | enroll body proof => exact enroll_presentable sound done
  | createInvite uses ttlMs code =>
    obtain ⟨-, done⟩ := demand_bind_eq_ok.mp done
    obtain ⟨-, done⟩ := demand_bind_eq_ok.mp done
    refine transaction_presentable sound done fun now u kept acted => ?_
    obtain ⟨-, acted⟩ := demand_bind_eq_ok.mp acted
    obtain ⟨-, acted⟩ := demand_bind_eq_ok.mp acted
    cases acted
    exact kept.same rfl rfl
  | bindAcmeAccount body proof issuer => exact bindAcmeAccount_presentable sound done
  | authorizeKeyless body proof signing =>
    obtain ⟨input, -, done⟩ := obtain?_bind_eq_ok.mp done
    obtain ⟨-, done⟩ := demand_bind_eq_ok.mp done
    obtain ⟨-, done⟩ := demand_bind_eq_ok.mp done
    refine authenticated_presentable sound done fun id now u v kept acted => ?_
    cases acted
    exact kept
  | presentChallenge body proof challengeId => exact presentChallenge_presentable sound done
  | removeChallenge body proof =>
    obtain ⟨input, -, done⟩ := obtain?_bind_eq_ok.mp done
    obtain ⟨challengeId, -, done⟩ := obtain?_bind_eq_ok.mp done
    obtain ⟨-, done⟩ := demand_bind_eq_ok.mp done
    refine authenticated_presentable sound done fun id now u v kept acted => ?_
    cases acted
    exact kept.fewer List.filter_sublist (List.Sublist.refl _)
  | operatorChallenge hostname value remove => exact operatorChallenge_presentable sound done
  | revokeInstallation id =>
    obtain ⟨id, -, done⟩ := obtain?_bind_eq_ok.mp done
    refine transaction_presentable sound done fun now u kept acted => ?_
    cases acted
    exact kept.fewer List.filter_sublist (List.Sublist.refl _)

theorem presentable_reachable (reached : Reachable (authorityMachine runtime policy) s) : s.Presentable policy := by
  refine reached.induction (P := AuthorityStore.Presentable policy) ?_ ?_
  · rintro s rfl
    exact ⟨fun row member => (by cases member), fun row member => (by cases member), fun row member => (by cases member),
      Nat.zero_le 4⟩
  · rintro s event t - ⟨-, rfl⟩ sound
    unfold AuthorityEvent.next
    split
    · next done => exact perform_presentable sound done
    · exact sound

end Rows

section Replies

variable {name : Text} {values : List Text}

theorem reply_answers (tcp : Bool) (id asked : Nat) (question : DnsQuestion) {draft : DnsDraft} {answers : List DnsRecord}
    (answered : draft.answers = answers.map recordOctets) (others : draft.authorities = [])
    (room : 12 + (questionOctets question).length ≤ replyLimit tcp) :
    ∃ count, count ≤ answers.length ∧
      reply tcp id (0x8000 ||| (asked &&& 0x0100)) (questionOctets question) draft = messageOctets {
        id
        flags := replyFlags asked draft.authoritative (decide (count < answers.length)) draft.rcode
        questions := [question]
        answers := answers.take count
        authorities := []
        additionals := [] } ∧
      ∀ more ≤ answers.length, (more ≤ count ↔
        12 + (questionOctets question).length + ((answers.take more).flatMap recordOctets).length ≤ replyLimit tcp) := by
  have single : [question].flatMap questionOctets = questionOctets question := by
    rw [List.flatMap_cons, List.flatMap_nil, List.append_nil]
  obtain ⟨count, bound, same, fits⟩ := reply_eq tcp id asked (Nat.le_refl [question].length) answered
    (others.trans List.map_nil.symm)
  rw [single] at same fits
  rw [List.length_nil, Nat.add_zero] at bound
  simp only [List.length_nil, Nat.add_zero, List.take_nil, List.append_nil] at same fits
  exact ⟨count, bound, same, fits room⟩

/-- The record of a challenge value. -/
def challengeRecord (name value : Text) : DnsRecord where
  name := labelsOf name
  type := DnsType.TXT.number
  qclass := 1
  ttl := 10
  data := UInt8.ofNat value.length :: ascii value

theorem length_challengeRecord {value : Text} (digest : challengeDigest value = true) :
    (recordOctets (challengeRecord name value)).length = name.length + 56 := by
  rw [challengeDigest, Bool.and_eq_true, decide_eq_true_eq] at digest
  have named := length_dnsName name
  rw [dnsName_eq] at named
  simp only [recordOctets, challengeRecord, List.length_append, length_beOctets, List.length_cons, ascii, List.length_map,
    named, digest.1]

theorem eraseDups_of_nodup {α : Type} [BEq α] [LawfulBEq α] {entries : List α} (nodup : entries.Nodup) :
    entries.eraseDups = entries := by
  induction entries with
  | nil => rfl
  | cons entry rest ih =>
    obtain ⟨absent, nodup⟩ := List.nodup_cons.mp nodup
    rw [List.eraseDups_cons, List.filter_eq_self.mpr, ih nodup]
    intro other member
    simpa using fun same : other = entry => absent (same ▸ member)

/-- The records of distinct values, unless they are too many. -/
theorem challengeRecords_eq (nodup : values.Nodup) (digests : ∀ value ∈ values, challengeDigest value = true) :
    challengeRecords name (some (values.map some)) =
      if values.length ≤ 128 then some ((values.map (challengeRecord name)).map recordOctets) else none := by
  have all : (values.map some).all (fun value => value.any challengeDigest) = true := by
    rw [List.all_map, List.all_eq_true]
    exact digests
  have same : (values.map some).filterMap id = values := by simp
  have each : (fun value => rr name DnsType.TXT.number 10 (UInt8.ofNat value.length :: ascii value)) =
      recordOctets ∘ challengeRecord name := by
    funext value
    exact rr_eq _ _ _ _
  unfold challengeRecords
  simp only [List.length_map, all, and_true, same, eraseDups_of_nodup nodup, each, List.map_map]

theorem length_challengeRecords (digests : ∀ value ∈ values, challengeDigest value = true) :
    ((values.map (challengeRecord name)).flatMap recordOctets).length = values.length * (name.length + 56) := by
  induction values with
  | nil => simp
  | cons value rest ih =>
    rw [List.map_cons, List.flatMap_cons, List.length_append, ih fun other member => digests other (List.mem_cons_of_mem _ member),
      length_challengeRecord (digests value List.mem_cons_self), List.length_cons, Nat.succ_mul, Nat.add_comm]

end Replies

section Served

variable {Body : Type} {runtime : AuthorityRuntime Body} {policy : AuthorityPolicy} {zone : LanDnsZone}
  {s : AuthorityStore Body} {first second : Timestamp} {name : Text} {values : List Text}

theorem challengeDigest_of_strict {value : Text} (strict : strictBase64Url 32 value = true) : challengeDigest value = true := by
  simp only [strictBase64Url, Bool.and_eq_true, decide_eq_true_eq, List.all_eq_true] at strict
  simp only [challengeDigest, Bool.and_eq_true, decide_eq_true_eq, List.all_eq_true]
  refine ⟨strict.1.1, fun c member => ?_⟩
  have char := strict.1.2 c member
  unfold base64UrlChar base64UrlValue at char
  have each : c.isAlphanum = ((c.isUpper || c.isLower) || c.isDigit) := rfl
  simp only [each, Bool.or_eq_true, beq_iff_eq]
  split at char
  · next upper => exact .inl (.inl (.inl (.inl upper)))
  split at char
  · next lower => exact .inl (.inl (.inl (.inr lower)))
  split at char
  · next digit => exact .inl (.inl (.inr digit))
  split at char
  · next dash => exact .inr dash
  split at char
  · next underscore => exact .inl (.inr underscore)
  · cases char

theorem mem_unexpired {value : Text} : value ∈ s.unexpired first second name ↔
    (∃ row ∈ s.challenges, row.name = name ∧ first < row.expiresAt ∧ row.value = value) ∨
      ∃ row ∈ s.operatorChallenges, row.name = name ∧ second < row.expiresAt ∧ row.value = value := by
  unfold AuthorityStore.unexpired
  simp only [List.mem_append, List.mem_map, List.mem_filter, decide_eq_true_eq, and_assoc]

theorem presented_of_unexpired (reached : Reachable (authorityMachine runtime policy) s)
    (stored : s.unexpired first second name ≠ []) : ∃ hostname, name = challengeName hostname ∧ hostname.length + 16 ≤ 253 ∧
      (hostname ∈ operatorHostnames policy ∨ ∃ id, AllowedHostname runtime policy id hostname) := by
  have presentable := presentable_reachable reached
  obtain ⟨value, member⟩ := List.exists_mem_of_ne_nil _ stored
  rcases mem_unexpired.mp member with ⟨row, listed, rfl, -⟩ | ⟨row, listed, rfl, -⟩
  · obtain ⟨hostname, named, allowed⟩ := (sound_reachable reached).challenges.named row listed
    have short := presentable.short row listed
    rw [named, length_challengeName] at short
    exact ⟨hostname, named, short, .inr ⟨_, allowed⟩⟩
  · obtain ⟨-, hostname, reserved, named⟩ := presentable.operators row listed
    have domain := (normal_spec policy.normalized).2.1
    have size : "authority-control.".toList.length = 18 := rfl
    refine ⟨hostname, named, ?_, .inl reserved⟩
    rcases List.mem_pair.mp reserved with rfl | rfl
    · omega
    · rw [List.length_append]
      omega

/-- The values of one name are all of installations, or all of the operator. -/
theorem length_unexpired_le (reached : Reachable (authorityMachine runtime policy) s) :
    (s.unexpired first second name).length ≤ max policy.limits.maxChallenges 4 := by
  have sound := sound_reachable reached
  have presentable := presentable_reachable reached
  have installations := (List.filter_sublist (p := fun row => decide (row.name = name ∧ first < row.expiresAt)) (l := s.challenges)).length_le
  have operators := (List.filter_sublist (p := fun row => decide (row.name = name ∧ second < row.expiresAt))
    (l := s.operatorChallenges)).length_le
  have limit := sound.limits.challenges
  have few := presentable.few
  unfold AuthorityStore.unexpired
  rw [List.length_append, List.length_map, List.length_map]
  by_cases own : s.challenges.filter (fun row => row.name = name ∧ first < row.expiresAt) = []
  · rw [own, List.length_nil]
    omega
  · have none : s.operatorChallenges.filter (fun row => row.name = name ∧ second < row.expiresAt) = [] := by
      obtain ⟨row, member⟩ := List.exists_mem_of_ne_nil _ own
      obtain ⟨listed, here⟩ := List.mem_filter.mp member
      obtain ⟨hostname, named, -, free, -⟩ := sound.guarantees.named row listed
      refine List.filter_eq_nil_iff.mpr fun other also same => free ?_
      obtain ⟨-, reserved, kept, spelled⟩ := presentable.operators other also
      have equal : challengeName reserved = challengeName hostname :=
        spelled.symm.trans ((of_decide_eq_true same).1.trans ((of_decide_eq_true here).1.symm.trans named))
      exact List.append_cancel_left equal ▸ kept
    rw [none, List.length_nil]
    omega

theorem challengeValues_spec (reached : Reachable (authorityMachine runtime policy) s)
    (stored : s.unexpired first second name ≠ []) : ∃ values,
      s.challengeValues (some first) (some second) name = .ok values ∧ values ≠ [] ∧ values.Nodup ∧
        (∀ value, value ∈ values ↔ value ∈ s.unexpired first second name) ∧
        (∀ value ∈ values, challengeDigest value = true) ∧ values.length ≤ max policy.limits.maxChallenges 4 := by
  obtain ⟨hostname, named, short, -⟩ := presented_of_unexpired reached stored
  have presentable := presentable_reachable reached
  have permuted := List.perm_insertionSort (· ≤ ·) (s.unexpired first second name).dedup
  have same : ∀ value, value ∈ (s.unexpired first second name).dedup.insertionSort (· ≤ ·) ↔
      value ∈ s.unexpired first second name := fun value => permuted.mem_iff.trans List.mem_dedup
  refine ⟨(s.unexpired first second name).dedup.insertionSort (· ≤ ·), ?_, fun none => ?_, ?_, same, fun value member => ?_, ?_⟩
  · rw [AuthorityStore.challengeValues, if_neg]
    · rfl
    · rw [named, length_challengeName]
      rintro (long | other)
      · omega
      · exact other (List.prefix_append _ _)
  · obtain ⟨value, member⟩ := List.exists_mem_of_ne_nil _ stored
    have there := (same value).mpr member
    rw [none] at there
    cases there
  · exact permuted.nodup_iff.mpr (List.nodup_dedup _)
  · refine challengeDigest_of_strict ?_
    rcases mem_unexpired.mp ((same value).mp member) with ⟨row, listed, -, -, rfl⟩ | ⟨row, listed, -, -, rfl⟩
    · exact presentable.digests row listed
    · exact (presentable.operators row listed).1
  · rw [permuted.length_eq]
    exact ((List.dedup_sublist _).length_le).trans (length_unexpired_le reached)

/-- The values of a name go into one reply over TCP. -/
def FitsReply (name : Text) (values : List Text) : Prop :=
  values.length ≤ 128 ∧ 18 + name.length + values.length * (name.length + 56) ≤ 16384

/-- A reply about the values of a name: a success with as many of them as fit unless they are too many for a reply at all,
and truncated when it has not all of them. -/
structure ServesChallenges (name : Text) (values : List Text) (packet : Octets) (message : DnsMessage) : Prop where
  id : message.id = readUInt16BE packet 0
  question : message.questions = [{ name := labelsOf name, type := DnsType.TXT.number, qclass := 1 }]
  rcode : message.flags % 8 = if values.length ≤ 128 then 0 else 2
  answers : values.length ≤ 128 → ∃ count ≤ values.length,
    message.answers = (values.take count).map (challengeRecord name) ∧
      ∀ more ≤ values.length, more ≤ count ↔ 18 + name.length + more * (name.length + 56) ≤ 16384
  many : 128 < values.length → message.answers = []
  whole : message.answers = values.map (challengeRecord name) ↔ FitsReply name values
  truncated : message.flags.testBit 9 = true ↔ values.length ≤ 128 ∧ ¬ FitsReply name values
  authorities : message.authorities = []
  additionals : message.additionals = []

theorem replyFlags_rcode {asked rcode : Nat} {authoritative truncated : Bool} (small : rcode < 8) :
    replyFlags asked authoritative truncated rcode % 8 = rcode := by
  have recursion : (asked &&& 0x0100) % 2 ^ 3 = 0 := by
    rw [Nat.and_mod_two_pow]
    simp
  have authority : (if authoritative then 0x0400 else 0 : Nat) % 2 ^ 3 = 0 := by split <;> decide
  have truncation : (if truncated then 0x0200 else 0 : Nat) % 2 ^ 3 = 0 := by split <;> decide
  have code : rcode % 2 ^ 3 = rcode := Nat.mod_eq_of_lt small
  show replyFlags asked authoritative truncated rcode % 2 ^ 3 = rcode
  rw [replyFlags, Nat.or_mod_two_pow, Nat.or_mod_two_pow, Nat.or_mod_two_pow, Nat.or_mod_two_pow, recursion, authority,
    truncation, code]
  simp

theorem draft_challenge (values : ChallengeValues) {hostname : Text}
    (below : hostname = zone.domain ∨ ('.' :: zone.domain) <:+ hostname)
    (known : zone.eligibleName hostname = true ∨ hostname ∈ zone.operatorNames) :
    zone.draft values { name := challengeName hostname, type := DnsType.TXT.number, qclass := 1 } =
      (challengeRecords (challengeName hostname) (values (challengeName hostname))).elim (.error 2 true) zone.settle := by
  have whole : challengeName hostname = "_acme-challenge".toList ++ '.' :: hostname := rfl
  have length := length_challengeName hostname
  have inside : ('.' :: zone.domain) <:+ challengeName hostname := by
    rw [whole]
    rcases below with rfl | deeper
    · exact List.suffix_append _ _
    · exact (deeper.trans (List.suffix_cons _ _)).trans (List.suffix_append _ _)
  have longer : zone.domain.length ≤ hostname.length := by
    rcases below with rfl | deeper
    · exact Nat.le_refl _
    · exact Nat.le_of_succ_le deeper.length_le
  have other : challengeName hostname ≠ zone.domain := fun same => by
    have equal := congrArg List.length same
    omega
  have rest : (challengeName hostname).drop 16 = hostname := rfl
  have front : "_acme-challenge.".toList <+: challengeName hostname := List.prefix_append _ _
  have recognised : ¬ (¬ zone.eligibleName hostname = true ∧ hostname ∉ zone.operatorNames) := fun neither =>
    known.elim neither.1 neither.2
  unfold LanDnsZone.draft
  dsimp only
  rw [if_neg (by simp [inside]), if_neg (by decide), if_neg other, if_pos front, rest, if_neg recognised, if_pos rfl]
  cases challengeRecords (challengeName hostname) (values (challengeName hostname)) <;> rfl

/-- A reply over TCP whose draft has answers only: it is read back, and it has as many of the answers as fit. -/
theorem respond_answers {values : ChallengeValues} {packet : Octets} {query : DnsQuery} (answers : List DnsRecord)
    (asked : Asked packet query) (answerable : Answerable packet) (named : NamedWell query.name)
    (small : query.type < 65536 ∧ query.qclass < 65536)
    (answered : (zone.draft values query).answers = answers.map recordOctets)
    (others : (zone.draft values query).authorities = []) (code : (zone.draft values query).rcode < 8)
    (few : answers.length < 65536) (well : ∀ record ∈ answers, record.Well) :
    ∃ message, ∃ count ≤ answers.length, zone.respond values packet true = some (messageOctets message) ∧
      readMessage (messageOctets message) = some message ∧ message.id = readUInt16BE packet 0 ∧
      message.questions = [{ name := labelsOf query.name, type := query.type, qclass := query.qclass }] ∧
      message.flags % 8 = (zone.draft values query).rcode ∧ message.answers = answers.take count ∧
      (∀ more ≤ answers.length, (more ≤ count ↔
        18 + query.name.length + ((answers.take more).flatMap recordOctets).length ≤ 16384)) ∧
      (message.flags.testBit 9 = true ↔ count < answers.length) ∧ message.authorities = [] ∧ message.additionals = [] := by
  have planned : zone.plan values packet = (questionSection query, zone.draft values query) := by
    rcases plan_cases zone values packet with ⟨never, _⟩ | ⟨again, asks, planned⟩
    · exact absurd asked (never query)
    · obtain rfl : query = again := Except.ok.inj (asked.2.2.symm.trans asks.2.2)
      exact planned
  let question : DnsQuestion := { name := labelsOf query.name, type := query.type, qclass := query.qclass }
  have questionWell : question.Well := ⟨named.well, small.1, small.2⟩
  have section' : questionSection query = questionOctets question := by
    rw [questionSection, dnsName_eq]
    rfl
  have size : (questionOctets question).length = query.name.length + 6 := by
    have length := length_dnsName query.name
    rw [dnsName_eq] at length
    simp only [questionOctets, List.length_append, length_beOctets, question, length]
  have short := named.short
  have limit : replyLimit true = 16384 := rfl
  obtain ⟨count, bound, same, fits⟩ := reply_answers true (readUInt16BE packet 0) (readUInt16BE packet 2) question answered
    others (by omega)
  rw [size, limit, show 12 + (query.name.length + 6) = 18 + query.name.length by omega] at fits
  have wellQuestions : ∀ other ∈ [question], other.Well := fun other member => List.mem_singleton.mp member ▸ questionWell
  have taken : (answers.take count).length < 65536 := by
    rw [List.length_take]
    omega
  have none : ([] : List DnsRecord).length < 65536 ∧ ∀ record ∈ ([] : List DnsRecord), record.Well :=
    ⟨by decide, fun record member => by cases member⟩
  refine ⟨{
      id := readUInt16BE packet 0
      flags := replyFlags (readUInt16BE packet 2) (zone.draft values query).authoritative (decide (count < answers.length))
        (zone.draft values query).rcode
      questions := [question]
      answers := answers.take count
      authorities := []
      additionals := [] }, count, bound, ?_, readMessage_messageOctets ⟨readUInt16BE_lt packet 0, replyFlags_lt code,
    ⟨show 1 < 65536 by decide, wellQuestions⟩, ⟨taken, fun record member => well record (List.mem_of_mem_take member)⟩,
    none, none⟩, rfl, rfl, replyFlags_rcode code, rfl, fits, ?_, rfl, rfl⟩
  · rw [LanDnsZone.respond, if_pos answerable, planned, section']
    exact congrArg Option.some same
  · dsimp only
    rw [replyFlags_truncated code, decide_eq_true_eq]

/-- A TXT query over TCP for a name with values is served. -/
theorem respond_challenges (reached : Reachable (authorityMachine runtime policy) s) (served : zone.domain = policy.lanDomain)
    (stored : s.unexpired first second name ≠ []) {packet : Octets} (answerable : Answerable packet)
    (asked : Asked packet { name, type := DnsType.TXT.number, qclass := 1 })
    (found : s.challengeValues (some first) (some second) name = .ok values) (filled : values ≠ []) (nodup : values.Nodup)
    (digests : ∀ value ∈ values, challengeDigest value = true) :
    ∃ message, zone.respond (s.dnsValues first second) packet true = some (messageOctets message) ∧
      readMessage (messageOctets message) = some message ∧ ServesChallenges name values packet message := by
  obtain ⟨hostname, rfl, short, presented⟩ := presented_of_unexpired reached stored
  obtain ⟨askable, below, known⟩ := recognised served short presented
  have named := (askable_challengeName askable short).named
  have drafted := draft_challenge (s.dnsValues first second) below known
  have asks : s.dnsValues first second (challengeName hostname) = Option.some (values.map Option.some) := by
    rw [AuthorityStore.dnsValues, found]
    rfl
  rw [asks, challengeRecords_eq nodup digests] at drafted
  have well : ∀ record ∈ values.map (challengeRecord (challengeName hostname)), record.Well := by
    intro record member
    obtain ⟨value, listed, rfl⟩ := List.mem_map.mp member
    have digest := digests value listed
    rw [challengeDigest, Bool.and_eq_true, decide_eq_true_eq] at digest
    refine ⟨named.well, show 16 < 65536 by decide, show 1 < 65536 by decide, show 10 < 4294967296 by decide, ?_⟩
    simp only [challengeRecord, List.length_cons, ascii, List.length_map, digest.1]
    decide
  by_cases few : values.length ≤ 128
  · rw [if_pos few] at drafted
    have none : (zone.settle ((values.map (challengeRecord (challengeName hostname))).map recordOctets)).authorities = [] :=
      if_neg (by simpa using filled)
    obtain ⟨message, count, bound, replied, read, id, question, rcode, answers, fits, truncated, authorities, additionals⟩ :=
      respond_answers (values.map (challengeRecord (challengeName hostname))) asked answerable named
        ⟨show 16 < 65536 by decide, show 1 < 65536 by decide⟩
        (by rw [drafted]; rfl) (by rw [drafted]; exact none) (by rw [drafted]; exact (show 0 < 8 by decide))
        (by rw [List.length_map]; omega) well
    rw [drafted] at rcode
    rw [List.length_map] at bound fits truncated
    have greatest : ∀ more ≤ values.length, more ≤ count ↔
        18 + (challengeName hostname).length + more * ((challengeName hostname).length + 56) ≤ 16384 := by
      intro more there
      have size : (((values.map (challengeRecord (challengeName hostname))).take more).flatMap recordOctets).length =
          more * ((challengeName hostname).length + 56) := by
        rw [← List.map_take, length_challengeRecords fun value member => digests value (List.mem_of_mem_take member),
          List.length_take_of_le there]
      rw [fits more there, size]
    -- all values are in the reply exactly when they fit
    have all : values.length ≤ count ↔ FitsReply (challengeName hostname) values :=
      (greatest values.length (Nat.le_refl _)).trans ⟨fun fits => ⟨few, fits⟩, fun fits => fits.2⟩
    refine ⟨message, replied, read, id, question, by rw [if_pos few]; exact rcode, fun _ => ⟨count, bound, ?_, greatest⟩,
      fun many => absurd few (Nat.not_le_of_lt many), ?_, ?_, authorities, additionals⟩
    · rw [answers, List.map_take]
    · rw [answers, List.take_eq_self_iff, List.length_map, all]
    · rw [truncated, ← all, Nat.not_le]
      exact ⟨fun left => ⟨few, left⟩, fun left => left.2⟩
  · rw [if_neg few] at drafted
    obtain ⟨message, count, bound, replied, read, id, question, rcode, answers, fits, truncated, authorities, additionals⟩ :=
      respond_answers [] asked answerable named
        ⟨show 16 < 65536 by decide, show 1 < 65536 by decide⟩
        (by rw [drafted]; rfl) (by rw [drafted]; rfl) (by rw [drafted]; exact (show 2 < 8 by decide)) (by decide)
        fun record member => by cases member
    rw [drafted] at rcode
    rw [List.take_nil] at answers
    refine ⟨message, replied, read, id, question, by rw [if_neg few]; exact rcode, fun fewer => absurd fewer few,
      fun _ => answers, ⟨fun all => ?_, fun fits => absurd fits.1 few⟩,
      ⟨fun beyond => absurd (truncated.mp beyond) (Nat.not_lt_zero count), fun beyond => absurd beyond.1 few⟩, authorities,
      additionals⟩
    rw [answers] at all
    exact absurd (List.map_eq_nil_iff.mp all.symm) filled

/-- A query for the TXT records of a name, as one packet. -/
def challengeQuery (id : Nat) (spelling : Text) : Octets :=
  u16 id ++ u16 0 ++ u16 1 ++ u16 0 ++ u16 0 ++ u16 0 ++ (dnsName spelling ++ u16 DnsType.TXT.number ++ u16 1)

theorem challengeQuery_asks {id : Nat} {spelling : Text} (askable : Askable name) (spelled : lowerText spelling = name) :
    Answerable (challengeQuery id spelling) ∧
      Asked (challengeQuery id spelling) { name, type := DnsType.TXT.number, qclass := 1 } := by
  have long : spelling.length = name.length := by rw [← spelled, lowerText, List.length_map]
  have short := askable.named.short
  have length : (challengeQuery id spelling).length = name.length + 18 := by
    simp only [challengeQuery, List.length_append, u16, length_beOctets, length_dnsName, long]
    omega
  have flags : readUInt16BE (challengeQuery id spelling) 2 = 0 := rfl
  have count : readUInt16BE (challengeQuery id spelling) 4 = 1 := rfl
  have stands : StandsAt (challengeQuery id spelling) 12 (dnsName spelling ++ u16 DnsType.TXT.number ++ u16 1) := by
    have behind := (standsAt_append.mp (standsAt_self (challengeQuery id spelling))).2
    simpa only [List.length_append, u16, length_beOctets] using behind
  refine ⟨⟨by omega, by omega, ?_⟩, ?_, count, ?_⟩
  · rw [flags]
    rfl
  · rw [flags]
    rfl
  · exact question_spelled askable spelled (by decide) (by decide) stands

/-- In every state of the authority, every name with challenges that have not expired is served over TCP: each spelling of
it is a question that is read, and the reply is a success that has the values of the name, each once, up to the first
that does not fit in 16384 octets; it is truncated exactly when some are left out, and a server failure only when there are more than
128, which the default limits exclude. Names of at most 71 characters always have all their values with these. -/
theorem presentedChallenges_served (reached : Reachable (authorityMachine runtime policy) s)
    (served : zone.domain = policy.lanDomain) (stored : s.unexpired first second name ≠ []) :
    (∀ id spelling, lowerText spelling = name → Answerable (challengeQuery id spelling) ∧
      Asked (challengeQuery id spelling) { name, type := DnsType.TXT.number, qclass := 1 }) ∧
    ∃ values, s.challengeValues (some first) (some second) name = .ok values ∧ values.Nodup ∧
      (∀ value, value ∈ values ↔
        (∃ row ∈ s.challenges, row.name = name ∧ first < row.expiresAt ∧ row.value = value) ∨
          ∃ row ∈ s.operatorChallenges, row.name = name ∧ second < row.expiresAt ∧ row.value = value) ∧
      (∀ packet, Answerable packet → Asked packet { name, type := DnsType.TXT.number, qclass := 1 } →
        ∃ message, zone.respond (s.dnsValues first second) packet true = some (messageOctets message) ∧
          readMessage (messageOctets message) = some message ∧ ServesChallenges name values packet message) ∧
      (policy.limits.maxChallenges ≤ 128 → values.length ≤ 128 ∧ (name.length ≤ 71 → FitsReply name values)) := by
  obtain ⟨values, found, filled, nodup, same, digests, few⟩ := challengeValues_spec reached stored
  refine ⟨fun id spelling spelled => ?_, values, found, nodup, fun value => (same value).trans mem_unexpired,
    fun packet answerable asked => respond_challenges reached served stored answerable asked found filled nodup digests,
    fun limit => ?_⟩
  · obtain ⟨hostname, rfl, short, presented⟩ := presented_of_unexpired reached stored
    exact challengeQuery_asks (askable_challengeName (recognised served short presented).1 short) spelled
  · have small : values.length ≤ 128 := few.trans (max_le limit (by decide))
    refine ⟨small, fun short => ⟨small, ?_⟩⟩
    have size : values.length * (name.length + 56) ≤ 128 * (name.length + 56) := Nat.mul_le_mul_right _ small
    omega

end Served

section Example

/-- The operator presents a value for the domain. -/
def operatorEvents : List (AuthorityEvent PublicKey) :=
  [⟨.operatorChallenge "l.t".toList (some exampleNonce) false, some 1, false⟩]

/-- The store after that. -/
def operatorStore : AuthorityStore PublicKey :=
  operatorEvents.foldl (fun s event => event.next exampleRuntime examplePolicy s) ⟨[], [], [], [], [], [], [], [], [], []⟩

theorem operatorStore_reachable : Reachable (authorityMachine exampleRuntime examplePolicy) operatorStore :=
  ⟨_, operatorEvents, rfl, .cons ⟨trivial, rfl⟩ (.nil _)⟩

/-- The zone of the domain. -/
def operatorZone : LanDnsZone where
  domain := "l.t".toList
  nameserver := "ns.l.t".toList
  caaIssuers := defaultCaaIssuers
  domainNormal := ⟨"l.t".toList, by decide⟩
  nameserverNormal := ⟨"ns.l.t".toList, by decide⟩
  issuersFew := exampleZone.issuersFew
  issuersNormal := exampleZone.issuersNormal

/-- The value is served, also to a query in other letters. -/
theorem presentedChallenges_served_operator : ∃ message,
    operatorZone.respond (operatorStore.dnsValues 2 2) (challengeQuery 7 "_ACME-Challenge.L.t".toList) true =
        some (messageOctets message) ∧ readMessage (messageOctets message) = some message ∧
      message.answers = [challengeRecord "_acme-challenge.l.t".toList exampleNonce] := by
  have stored : operatorStore.unexpired 2 2 "_acme-challenge.l.t".toList ≠ [] := by decide
  have served : operatorZone.domain = examplePolicy.lanDomain := rfl
  obtain ⟨asks, values, found, -, -, answered, limited⟩ := presentedChallenges_served operatorStore_reachable served stored
  obtain ⟨answerable, asked⟩ := asks 7 "_ACME-Challenge.L.t".toList (by decide)
  obtain ⟨message, replied, read, serves⟩ := answered _ answerable asked
  have read' : operatorStore.challengeValues (some 2) (some 2) "_acme-challenge.l.t".toList = .ok [exampleNonce] := by rfl
  obtain rfl := Except.ok.inj (read'.symm.trans found)
  exact ⟨message, replied, read, serves.whole.mpr ((limited (by decide)).2 (by decide))⟩

end Example

end LatexRenderer
