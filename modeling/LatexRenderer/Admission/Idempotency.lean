import LatexRenderer.Model.Idempotency

/-! # Idempotent creation

The records of a key are a ledger: a record that has not expired still holds its key, and of two creations
under a key the first had expired when the second was made. So while a record is live every answer under its
key is its resource or an error, and a request that found its key absent can fail on the key only when
another request has created something in between.
-/

namespace LatexRenderer

open Machine

/-- The rows a request may find in its way: those that had expired at its lookup, and those of later
creations. -/
def CreationRequest.Unseen (request : CreationRequest) (s : CreationSystem) : Prop :=
  ∀ now seen, request.phase = .absent now seen → seen ≤ s.created.length ∧
    ∀ row ∈ s.records, row.key = request.key → row.expiresAt ≤ now ∨ ∃ made, (made, row) ∈ s.created.drop seen

namespace CreationSystem

/-- The invariant of the creation of resources. -/
structure Sound (s : CreationSystem) : Prop where
  ledger : Ledger IdempotencyRow.key IdempotencyRow.expiresAt s.clock s.records s.created
  named : ∀ made row, (made, row) ∈ s.created → row.resourceId.isSome
  unseen : ∀ request ∈ s.requests, request.Unseen s

variable {s t : CreationSystem} {request : CreationRequest} {limits : Limits}

theorem Sound.resource (sound : s.Sound) {row : IdempotencyRow} (member : row ∈ s.records) :
    ∃ resourceId, row.resourceId = some resourceId := by
  obtain ⟨made, recorded⟩ := sound.ledger.claimed row member
  exact Option.isSome_iff_exists.mp (sound.named made row recorded)

/-- A service finds its key absent exactly when no live record has it. -/
theorem Sound.lookup_absent (sound : s.Sound) {service : IdempotentService} {key : IdempotencyKey}
    {hash : String} {now : Timestamp} (absent : service.lookup key hash now s.records = .absent) :
    idempotency key now s.records = none := by
  unfold IdempotentService.lookup at absent
  cases found : idempotency key now s.records with
  | none => rfl
  | some row =>
    obtain ⟨resourceId, named⟩ := sound.resource (live?_eq_some found).1
    rw [found] at absent
    simp only [named] at absent
    split at absent <;> cases absent

/-- What a lookup answers when a record is live. -/
theorem Sound.lookup_live (sound : s.Sound) {made : Timestamp} {row : IdempotencyRow}
    (member : (made, row) ∈ s.created) (live : s.clock < row.expiresAt) {now : Timestamp} (past : now ≤ s.clock)
    (service : IdempotentService) (hash : String) :
    (row.requestHash = hash → ∃ resourceId, row.resourceId = some resourceId ∧
      service.lookup row.key hash now s.records = .existing resourceId) ∧
    (row.requestHash ≠ hash → service.lookup row.key hash now s.records =
      .refused ⟨"IDEMPOTENCY_CONFLICT", service.conflict, 409⟩) := by
  have found : idempotency row.key now s.records = some row := sound.ledger.holds member live past
  obtain ⟨resourceId, named⟩ := Option.isSome_iff_exists.mp (sound.named made row member)
  constructor
  · intro same
    exact ⟨resourceId, named, by simp [IdempotentService.lookup, found, named, same]⟩
  · intro other
    simp [IdempotentService.lookup, found, named, other]

/-- Requests that are dropped or go on leave the invariant. -/
theorem Sound.withRequests (sound : s.Sound) {requests : List CreationRequest} (answers : List Answer)
    (unseen : ∀ request ∈ requests, request.Unseen s) :
    ({ s with requests := requests, answers := answers } : CreationSystem).Sound where
  ledger := sound.ledger
  named := sound.named
  unseen := unseen

theorem Sound.answer (sound : s.Sound) (request : CreationRequest) (result : AnswerResult) :
    (s.answer request result).Sound :=
  sound.withRequests _ fun other member => sound.unseen other (List.mem_of_mem_filter member)

theorem Sound.fail (sound : s.Sound) (request : CreationRequest) (refusal : CreationRefusal) :
    (s.withPhase request (.failed refusal)).Sound := by
  refine sound.withRequests s.answers fun other member => ?_
  rcases List.mem_cons.mp member with rfl | before
  · exact nofun
  · exact sound.unseen other (List.mem_of_mem_filter before)

/-- A request that found its key absent has only expired records in its way. -/
theorem Sound.pass (sound : s.Sound) (request : CreationRequest) {now : Timestamp}
    (absent : idempotency request.key now s.records = none) :
    (s.withPhase request (.absent now s.created.length)).Sound := by
  refine sound.withRequests s.answers fun other member => ?_
  rcases List.mem_cons.mp member with rfl | before
  · intro looked seen same
    cases same
    exact ⟨Nat.le_refl _, fun row present key_eq => .inl (live?_eq_none absent row present key_eq)⟩
  · exact sound.unseen other (List.mem_of_mem_filter before)

/-- `insertIdempotency` takes the key at the creation instant of its row. -/
theorem claim_of_insert {row : IdempotencyRow} {records next : List IdempotencyRow}
    (inserted : insertIdempotency row records = .ok next) :
    claim? IdempotencyRow.key IdempotencyRow.expiresAt row.createdAt row records = some next := by
  unfold insertIdempotency at inserted
  split_ifs at inserted
  split at inserted
  · cases inserted
    assumption
  · cases inserted

/-- `insertIdempotency` refuses a row because of a live record of its key. -/
theorem active_eq_error {row : IdempotencyRow} {records : List IdempotencyRow}
    (failed : insertIdempotency row records = .error .active) :
    ∃ other ∈ records, other.key = row.key ∧ row.createdAt < other.expiresAt := by
  unfold insertIdempotency at failed
  split at failed
  · cases failed
  · split at failed
    · cases failed
    · exact claim?_eq_none ‹_›

theorem Sound.commit (sound : s.Sound) {row : IdempotencyRow} {db : Database} {records : List IdempotencyRow}
    (inserted : insertIdempotency row s.records = .ok records) (past : row.createdAt ≤ s.clock)
    (named : row.resourceId.isSome) : (s.commit row db records).Sound := by
  have taken := claim_of_insert inserted
  constructor
  case ledger => exact sound.ledger.claim taken past
  case named =>
    intro made other member
    rcases List.mem_append.mp member with before | added
    · exact sound.named made other before
    · cases List.mem_singleton.mp added
      exact named
  case unseen =>
    intro request member now seen phase
    obtain ⟨within, way⟩ := sound.unseen request member now seen phase
    refine ⟨Nat.le_trans within (by simp [CreationSystem.commit]), fun other present key_eq => ?_⟩
    rw [CreationSystem.commit, List.drop_append_of_le_length within]
    rcases (mem_claim? taken).2.1 other present with rfl | ⟨before, _⟩
    · exact .inr ⟨s.clock, by simp⟩
    · rcases way other before key_eq with expired | ⟨made, later⟩
      · exact .inl expired
      · exact .inr ⟨made, List.mem_append_left _ later⟩

theorem createResource_eq_ok {creation : Creation} {row : IdempotencyRow} {db next : Database}
    {records rest : List IdempotencyRow}
    (created : createResource limits creation row db records = .ok (next, rest)) :
    creation.run limits db = some next ∧ insertIdempotency row records = .ok rest := by
  unfold createResource at created
  split at created
  · cases created
  · split at created
    · cases created
    · cases created
      exact ⟨‹_›, ‹_›⟩

end CreationSystem

namespace CreationAction

variable {s t : CreationSystem} {action : CreationAction} {limits : Limits}

/-- What a step does to the records, the creations and the answers. -/
inductive Effect (s : CreationSystem) (action : CreationAction) : CreationSystem → Prop
  | advance (clock : Timestamp) (later : s.clock ≤ clock) : Effect s action { s with clock := clock }
  | passed (service : IdempotentService) (request : CreationRequest) (now : Timestamp) (past : now ≤ s.clock)
      (absent : service.lookup request.key request.requestHash now s.records = .absent) :
    Effect s action (s.withPhase request (.absent now s.created.length))
  | failed (request : CreationRequest) (refusal : CreationRefusal) :
    Effect s action (s.withPhase request (.failed refusal))
  | answered (request : CreationRequest) (result : AnswerResult)
      (fits : (∃ error, result = .refused error) ∨
        ∃ resourceId row, result = .existing resourceId ∧ row ∈ s.records ∧ row.key = request.key ∧
          row.requestHash = request.requestHash ∧ row.resourceId = some resourceId) :
    Effect s action (s.answer request result)
  | committed (request : CreationRequest) (row : IdempotencyRow) (db : Database)
      (records : List IdempotencyRow) (inserted : insertIdempotency row s.records = .ok records)
      (past : row.createdAt ≤ s.clock) (mine : row.key = request.key ∧ row.requestHash = request.requestHash)
      (resourceId : String) (named : row.resourceId = some resourceId) :
    Effect s action ((s.commit row db records).answer request (.created resourceId))
  | other (db : Database) (outside : ∃ transaction, action = .transaction transaction) :
    Effect s action { s with db := db }
  | cleaned (now : Timestamp) (past : now ≤ s.clock) :
    Effect s action { s with records := cleanupIdempotency now s.records }

theorem lookup_existing {service : IdempotentService} {key : IdempotencyKey} {hash resourceId : String}
    {now : Timestamp} {records : List IdempotencyRow}
    (found : service.lookup key hash now records = .existing resourceId) :
    ∃ row ∈ records, row.key = key ∧ row.requestHash = hash ∧ row.resourceId = some resourceId := by
  unfold IdempotentService.lookup at found
  cases live : idempotency key now records with
  | none => simp [live] at found
  | some row =>
    obtain ⟨member, keyed, _⟩ := live?_eq_some live
    simp only [live] at found
    split at found
    · cases found
    · split_ifs at found with other
      split at found
      · next named =>
        cases found
        exact ⟨row, member, keyed, by simpa using other, named⟩
      · cases found

theorem raced_existing {key : IdempotencyKey} {hash resourceId : String} {now : Timestamp}
    {records : List IdempotencyRow} (found : racedLookup key hash now records = some resourceId) :
    ∃ row ∈ records, row.key = key ∧ row.requestHash = hash ∧ row.resourceId = some resourceId := by
  obtain ⟨row, live, named⟩ := Option.bind_eq_some_iff.mp found
  obtain ⟨same, resource⟩ := (Option.ite_none_right_eq_some ..).mp named
  obtain ⟨member, keyed, _⟩ := live?_eq_some live
  exact ⟨row, member, keyed, same, resource⟩

theorem lookupStep_effect {service : IdempotentService} {request : CreationRequest} {now : Timestamp}
    (past : now ≤ s.clock) : Effect s action (lookupStep service request now s) := by
  unfold lookupStep
  cases found : service.lookup request.key request.requestHash now s.records with
  | absent => exact .passed service request now past found
  | refused error => exact .answered request _ (.inl ⟨some error, rfl⟩)
  | existing resourceId =>
    obtain ⟨row, member, keyed, same, named⟩ := lookup_existing found
    exact .answered request _ (.inr ⟨resourceId, row, rfl, member, keyed, same, named⟩)

theorem createStep_effect {request : CreationRequest} {creation : Creation} {responseCode : Nat}
    {createdAt expiresAt : Timestamp} (past : createdAt ≤ s.clock) :
    Effect s action (createStep limits request creation
      (request.row creation.resourceId responseCode createdAt expiresAt) s) := by
  unfold createStep
  split
  · next db records created =>
    exact .committed request _ db records (CreationSystem.createResource_eq_ok created).2 past ⟨rfl, rfl⟩ _ rfl
  · exact .failed request _

theorem retrySvgStep_effect {request : CreationRequest} {input : SvgRetryInput} {now expiresAt : Timestamp}
    (past : input.timestamp ≤ s.clock) : Effect s action (retrySvgStep limits request input now expiresAt s) := by
  unfold retrySvgStep
  split
  · next previous live =>
    split_ifs with other
    · exact .answered request _ (.inl ⟨_, rfl⟩)
    · obtain ⟨same, named⟩ := not_or.mp other
      obtain ⟨member, keyed, _⟩ := live?_eq_some live
      exact .answered request _
        (.inr ⟨input.jobId, previous, rfl, member, keyed, by simpa using same, by simpa using named⟩)
  · dsimp only
    split
    · next db records _ inserted =>
      exact .committed request _ db records inserted past ⟨rfl, rfl⟩ _ rfl
    · exact .answered request _ (.inl ⟨_, rfl⟩)
    · exact .answered request _ (.inl ⟨_, rfl⟩)

theorem step_effect (stepped : action.step limits s = some t) : Effect s action t := by
  cases action with
  | advance clock =>
    obtain ⟨later, eq⟩ := (Option.ite_none_right_eq_some ..).mp stepped
    exact Option.some.inj eq ▸ .advance clock later
  | lookup service request now =>
    obtain ⟨⟨past, _⟩, eq⟩ := (Option.ite_none_right_eq_some ..).mp stepped
    exact Option.some.inj eq ▸ lookupStep_effect past
  | create id creation responseCode createdAt expiresAt =>
    obtain ⟨request, _, created⟩ := Option.bind_eq_some_iff.mp stepped
    split at created
    · obtain ⟨⟨_, past⟩, eq⟩ := (Option.ite_none_right_eq_some ..).mp created
      exact Option.some.inj eq ▸ createStep_effect past
    · cases created
  | raced id now error =>
    obtain ⟨request, _, looked⟩ := Option.bind_eq_some_iff.mp stepped
    split at looked
    · obtain ⟨_, eq⟩ := (Option.ite_none_right_eq_some ..).mp looked
      split at eq
      · next resourceId found =>
        obtain ⟨row, member, keyed, same, named⟩ := raced_existing found
        exact Option.some.inj eq ▸
          .answered request _ (.inr ⟨resourceId, row, rfl, member, keyed, same, named⟩)
      · exact Option.some.inj eq ▸ .answered request _ (.inl ⟨error, rfl⟩)
    · cases looked
  | refuse request error => exact Option.some.inj stepped ▸ .answered request _ (.inl ⟨some error, rfl⟩)
  | retrySvg request input now expiresAt =>
    obtain ⟨⟨_, past, _⟩, eq⟩ := (Option.ite_none_right_eq_some ..).mp stepped
    exact Option.some.inj eq ▸ retrySvgStep_effect past
  | transaction action =>
    obtain ⟨db, _, rfl⟩ := Option.map_eq_some_iff.mp stepped
    exact .other db ⟨action, rfl⟩
  | cleanup now =>
    obtain ⟨past, eq⟩ := (Option.ite_none_right_eq_some ..).mp stepped
    exact Option.some.inj eq ▸ .cleaned now past

theorem Effect.sound (effect : Effect s action t) (sound : s.Sound) : t.Sound := by
  cases effect with
  | advance clock later => exact { sound with ledger := sound.ledger.advance later }
  | passed service request now past absent => exact sound.pass request (sound.lookup_absent absent)
  | failed request refusal => exact sound.fail request refusal
  | answered request result fits => exact sound.answer request result
  | committed request row db records inserted past mine resourceId named =>
    exact (sound.commit inserted past (Option.isSome_of_mem named)).answer request (.created resourceId)
  | other db outside => exact { sound with }
  | cleaned now past =>
    refine { sound with ledger := sound.ledger.delete ?_, unseen := ?_ }
    · intro row _ deleted
      have expired : row.expiresAt < now := by simpa using deleted
      exact Nat.le_trans (Nat.le_of_lt expired) past
    · intro request member looked seen phase
      obtain ⟨within, way⟩ := sound.unseen request member looked seen phase
      exact ⟨within, fun row present => way row (List.mem_of_mem_filter present)⟩

theorem creation_sound (reached : Reachable (creationMachine limits) s) : s.Sound := by
  refine reached.induction ?_ ?_
  · rintro _ ⟨clock, db, rfl⟩
    exact ⟨.nil clock, nofun, nofun⟩
  · intro before action next _ stepped sound
    exact (step_effect stepped).sound sound

/-- While a record is live, a step answers its key with its resource or an error, an error only to a
request with another hash, and creates nothing under it. -/
theorem Effect.live (effect : Effect s action t) (sound : s.Sound) {made : Timestamp} {row : IdempotencyRow}
    (member : (made, row) ∈ s.created) (live : s.clock < row.expiresAt) :
    (∀ answer, t.answers = s.answers ++ [answer] → answer.key = row.key →
      (∃ error, answer.result = .refused error) ∨ answer.requestHash = row.requestHash ∧
        ∃ resourceId, row.resourceId = some resourceId ∧ answer.result = .existing resourceId) ∧
    ∀ new, new ∈ t.created → new ∉ s.created → new.2.key ≠ row.key := by
  have only : ∀ other ∈ s.records, other.key = row.key → other = row := fun other present same =>
    List.inj_on_of_nodup_map sound.ledger.distinct present (sound.ledger.kept made row member live) same
  have unchanged {P : Prop} {answer : Answer} (same : s.answers = s.answers ++ [answer]) : P := by
    have length := congrArg List.length same
    simp at length
  cases effect with
  | advance | passed | failed | other | cleaned =>
    exact ⟨fun answer same => unchanged same, fun new present absent => absurd present absent⟩
  | answered request result fits =>
    refine ⟨fun answer same keyed => ?_, fun new present absent => absurd present absent⟩
    obtain rfl := List.singleton_inj.mp (List.append_cancel_left same)
    rcases fits with refused | ⟨resourceId, other, existing, present, ofRequest, hash, named⟩
    · exact .inl refused
    · obtain rfl := only other present (ofRequest.trans keyed)
      exact .inr ⟨hash.symm, resourceId, named, existing⟩
  | committed request new db records inserted past mine resourceId named =>
    have after : (s.commit new db records).Sound := sound.commit inserted past (Option.isSome_of_mem named)
    have other : new.key ≠ row.key := by
      intro same
      have expired := (List.pairwise_append.mp after.ledger.apart).2.2 _ member _ List.mem_cons_self same.symm
      exact absurd live (Nat.not_lt.mpr expired)
    refine ⟨fun answer same keyed => ?_, fun added present absent => ?_⟩
    · obtain rfl := List.singleton_inj.mp (List.append_cancel_left same)
      exact absurd (mine.1.trans keyed) other
    · rcases List.mem_append.mp present with before | last
      · exact absurd before absent
      · obtain rfl := List.mem_singleton.mp last
        exact other

/-- A step of a request that creates nothing leaves the database alone. -/
theorem Effect.nothing (effect : Effect s action t) (inside : ∀ transaction, action ≠ .transaction transaction)
    (none : t.created = s.created) : t.db = s.db := by
  cases effect with
  | advance | passed | failed | answered | cleaned => rfl
  | other db outside =>
    obtain ⟨transaction, same⟩ := outside
    exact absurd same (inside transaction)
  | committed request row db records =>
    have length := congrArg List.length none
    simp [CreationSystem.answer, CreationSystem.commit] at length

/-- No step takes the place of a live record or deletes it. -/
theorem Effect.keeps (effect : Effect s action t) (sound : s.Sound) {row : IdempotencyRow}
    (member : row ∈ s.records) (live : s.clock < row.expiresAt) : row ∈ t.records := by
  cases effect with
  | advance | passed | failed | answered | other => exact member
  | committed request new db records inserted past =>
    obtain ⟨_, _, others, distinct⟩ := mem_claim? (CreationSystem.claim_of_insert inserted)
    by_cases same : row.key = new.key
    · have expired := (distinct sound.ledger.distinct).2 row member same
      exact absurd (Nat.lt_of_lt_of_le live expired) (Nat.not_lt.mpr past)
    · exact others row member same
  | cleaned now past =>
    refine List.mem_filter.mpr ⟨member, ?_⟩
    have notYet : ¬ row.expiresAt < now := Nat.not_lt.mpr (Nat.le_of_lt (Nat.lt_of_le_of_lt past live))
    simp [notYet]

/-- An insertion that its request's lookup let through fails on the key because of a later creation. -/
theorem active_of_later (sound : s.Sound) {request : CreationRequest} (member : request ∈ s.requests)
    {now : Timestamp} {seen : Nat} (phase : request.phase = .absent now seen) {row : IdempotencyRow}
    (mine : row.key = request.key) (later : now ≤ row.createdAt)
    (failed : insertIdempotency row s.records = .error .active) :
    ∃ made other, (made, other) ∈ s.created.drop seen ∧ other.key = request.key := by
  obtain ⟨other, present, same, live⟩ := CreationSystem.active_eq_error failed
  rcases (sound.unseen request member now seen phase).2 other present (same.trans mine) with
    expired | ⟨made, created⟩
  · exact absurd (Nat.lt_of_le_of_lt later live) (Nat.not_lt.mpr expired)
  · exact ⟨made, other, created, same.trans mine⟩

/-- A request that failed looks its key up again, and gets the resource of a live record with its hash. -/
theorem raced_answered (sound : s.Sound) {id : String} {request : CreationRequest} {refusal : CreationRefusal}
    (known : s.request? id = some request) (failed : request.phase = .failed refusal) {made : Timestamp} {row : IdempotencyRow}
    (member : (made, row) ∈ s.created) (live : s.clock < row.expiresAt) (mine : row.key = request.key)
    (same : row.requestHash = request.requestHash) {now : Timestamp} (past : now ≤ s.clock) (error : Option AppError) :
    ∃ resourceId, row.resourceId = some resourceId ∧
      (CreationAction.raced id now error).step limits s = some (s.answer request (.existing resourceId)) := by
  have found : idempotency request.key now s.records = some row := mine ▸ sound.ledger.holds member live past
  obtain ⟨resourceId, named⟩ := Option.isSome_iff_exists.mp (sound.named made row member)
  have raced : racedLookup request.key request.requestHash now s.records = some resourceId := by
    rw [racedLookup, found]
    exact (if_pos same).trans named
  refine ⟨resourceId, named, ?_⟩
  unfold CreationAction.step
  dsimp only
  rw [known]
  simp only [Option.bind_eq_bind, Option.bind_some, failed, if_pos past, raced]

end CreationAction

/-- Idempotent creation, in every reachable state and for every step from it. Of two creations under a key
the record of the first had expired when the second was made. While a record is live, an answer to a
request with its key is its resource or an error, to a request with another hash an error, and nothing
is created under the key; a request with another hash that reaches its lookup gets
`IDEMPOTENCY_CONFLICT`. A lookup and an insertion agree on the expiry: a request that found its key absent
fails on the key only after another creation under it, the SVG retry never does, and no step removes a live
record; a request whose transaction threw looks its key up again and is answered with the resource of a live
record with its hash. A step of a request that creates nothing leaves the database as it was. -/
theorem idempotent_creation (limits : Limits) {s : CreationSystem}
    (reached : Reachable (creationMachine limits) s) :
    (s.created.Pairwise fun first second => first.2.key = second.2.key → first.2.expiresAt ≤ second.1) ∧
    (∀ action t, (creationMachine limits).Step s action t →
      (∀ made row, (made, row) ∈ s.created → s.clock < row.expiresAt →
        (∀ answer, t.answers = s.answers ++ [answer] → answer.key = row.key →
          (∃ error, answer.result = .refused error) ∨ answer.requestHash = row.requestHash ∧
            ∃ resourceId, row.resourceId = some resourceId ∧ answer.result = .existing resourceId) ∧
        ∀ new, new ∈ t.created → new ∉ s.created → new.2.key ≠ row.key) ∧
      (∀ row ∈ s.records, s.clock < row.expiresAt → row ∈ t.records) ∧
      ((∀ transaction, action ≠ .transaction transaction) → t.created = s.created → t.db = s.db)) ∧
    (∀ made row, (made, row) ∈ s.created → s.clock < row.expiresAt → ∀ now ≤ s.clock,
      ∀ (service : IdempotentService) hash, row.requestHash ≠ hash →
        service.lookup row.key hash now s.records =
          .refused ⟨"IDEMPOTENCY_CONFLICT", service.conflict, 409⟩) ∧
    (∀ request ∈ s.requests, ∀ now seen, request.phase = .absent now seen →
      ∀ creation row, row.key = request.key → now ≤ row.createdAt →
        createResource limits creation row s.db s.records = .error (.record .active) →
          ∃ made other, (made, other) ∈ s.created.drop seen ∧ other.key = request.key) ∧
    (∀ row now, idempotency row.key now s.records = none → now ≤ row.createdAt →
      insertIdempotency row s.records ≠ .error .active) ∧
    ∀ id request refusal, s.request? id = some request → request.phase = .failed refusal →
      ∀ made row, (made, row) ∈ s.created → s.clock < row.expiresAt → row.key = request.key →
        row.requestHash = request.requestHash → ∀ now ≤ s.clock, ∀ error, ∃ resourceId, row.resourceId = some resourceId ∧
          (CreationAction.raced id now error).step limits s = some (s.answer request (.existing resourceId)) := by
  have sound := CreationAction.creation_sound reached
  refine ⟨sound.ledger.apart, fun action t stepped => ⟨?_, ?_, ?_⟩, ?_, ?_, ?_, ?_⟩
  · intro made row member live
    exact (CreationAction.step_effect stepped).live sound member live
  · intro row member live
    exact (CreationAction.step_effect stepped).keeps sound member live
  · intro inside none
    exact (CreationAction.step_effect stepped).nothing inside none
  · intro made row member live now past service hash other
    exact (sound.lookup_live member live past service hash).2 other
  · intro request member now seen phase creation row mine later failed
    unfold createResource at failed
    split at failed
    · cases failed
    · split at failed
      · next refused =>
        cases failed
        exact CreationAction.active_of_later sound member phase mine later refused
      · cases failed
  · intro row now absent later failed
    obtain ⟨other, present, same, live⟩ := CreationSystem.active_eq_error failed
    have expired := live?_eq_none absent other present same
    exact absurd (Nat.lt_of_le_of_lt later live) (Nat.not_lt.mpr expired)
  · intro id request refusal known failed made row member live mine same now past error
    exact CreationAction.raced_answered sound known failed member live mine same past error

def exampleSourceLimits : Limits where
  maxQueueLength := 1
  maxUserActiveJobs := 1
  maxUserStorageBytes := 10
  maxOutputBytes := 1
  globalTreeBytes := 1
  userTreeBytes := 1

def exampleKey : IdempotencyKey where
  actorType := "service_account"
  actorId := "sa_1"
  operation := "source.create"
  keyHash := "key_1"

/-- A request under the example key. -/
def exampleCreation (id requestHash : String) : CreationRequest where
  id := id
  key := exampleKey
  requestHash := requestHash
  phase := .failed .rejected

/-- The source that a request reserves. -/
def exampleSourceCreation (sourceId : String) : Creation :=
  .source
    { id := sourceId
      ownerUserId := "user_1"
      size := 1
      sha256 := 0
      timestamp := 1
      expiresAt := 600 }

/-- Two requests look the key up, and then both try to create their source. -/
def exampleRace : List CreationAction :=
  [.advance 1, .lookup sourceTicketsService (exampleCreation "first" "hash_1") 1,
    .lookup sourceTicketsService (exampleCreation "second" "hash_1") 1,
    .create "first" (exampleSourceCreation "source_1") 201 1 600,
    .create "second" (exampleSourceCreation "source_2") 201 1 600]

/-- The first source is created and its record lives: a request with another hash is refused, and the second one, which lost
the race, gets the first source. -/
theorem idempotent_creation_conflict :
    ∃ s request, Reachable (creationMachine exampleSourceLimits) s ∧
      sourceTicketsService.lookup exampleKey "hash_2" 1 s.records =
        .refused ⟨"IDEMPOTENCY_CONFLICT", sourceTicketsService.conflict, 409⟩ ∧
      request.phase = .failed (.record .active) ∧
      (CreationAction.raced "second" 1 none).step exampleSourceLimits s =
        some (s.answer request (.existing "source_1")) := by
  let row := (exampleCreation "first" "hash_1").row "source_1" 201 1 600
  let request : CreationRequest := { exampleCreation "second" "hash_1" with phase := .failed (.record .active) }
  have replayed : (replay? (CreationAction.step exampleSourceLimits) { clock := 0, db := {} }
      exampleRace).any (fun s => s.created.contains (1, row) && s.clock == 1 && s.request? "second" == some request) =
        true := by decide
  obtain ⟨s, run, check⟩ : ∃ s, Run (creationMachine exampleSourceLimits) { clock := 0, db := {} }
    exampleRace s ∧ _ := exists_run_of_replay? replayed
  simp only [Bool.and_eq_true, List.contains_iff_mem, beq_iff_eq] at check
  obtain ⟨⟨member, clock⟩, known⟩ := check
  have reached : Reachable (creationMachine exampleSourceLimits) s := ⟨_, _, ⟨0, {}, rfl⟩, run⟩
  obtain ⟨-, -, conflicts, -, -, answered⟩ := idempotent_creation exampleSourceLimits reached
  have live : s.clock < row.expiresAt := by
    rw [clock]
    decide
  have past : 1 ≤ s.clock := Nat.le_of_eq clock.symm
  obtain ⟨resourceId, named, stepped⟩ := answered "second" request _ known rfl 1 row member live rfl rfl 1 past none
  cases named
  exact ⟨s, request, reached, conflicts 1 row member live 1 past sourceTicketsService "hash_2" (by decide), rfl, stepped⟩

/-- A request can find its key absent and then fail to insert its record: another request may have
inserted one in between. -/
theorem idempotent_creation_raced :
    ¬ ∀ s, Reachable (creationMachine exampleSourceLimits) s → ∀ request ∈ s.requests,
      request.phase ≠ .failed (.record .active) := by
  intro claimed
  have replayed : (replay? (CreationAction.step exampleSourceLimits) { clock := 0, db := {} }
      exampleRace).any (fun s => s.requests.any (·.phase == .failed (.record .active))) = true := by decide
  obtain ⟨s, run, check⟩ : ∃ s, Run (creationMachine exampleSourceLimits) { clock := 0, db := {} }
    exampleRace s ∧ _ := exists_run_of_replay? replayed
  simp only [List.any_eq_true, beq_iff_eq] at check
  obtain ⟨request, member, failed⟩ := check
  exact claimed s ⟨_, _, ⟨0, {}, rfl⟩, run⟩ request member failed

end LatexRenderer
