import LatexRenderer.Deploy.DnsRecords

/-! # Replies of the DNS responder

A reply is the message of its header, its question and the records that fit. It is read back whole, and it differs from
what was asked only in the case of the question's letters.
-/

namespace LatexRenderer

open Machine

section Accepted

variable {limit length : Nat} {records : List Octets}

theorem acceptRecords_prefix (limit length : Nat) (records : List Octets) :
    acceptRecords limit length records <+: records := by
  induction records generalizing length with
  | nil => exact List.nil_prefix
  | cons record rest ih =>
    rw [acceptRecords]
    split
    · exact List.nil_prefix
    · exact List.cons_prefix_cons.mpr ⟨rfl, ih _⟩

theorem le_length_acceptRecords {more : Nat} (fits : length ≤ limit) (there : more ≤ records.length) :
    more ≤ (acceptRecords limit length records).length ↔ length + (records.take more).flatten.length ≤ limit := by
  induction records generalizing length more with
  | nil =>
    obtain rfl : more = 0 := Nat.le_zero.mp there
    exact iff_of_true (Nat.zero_le _) fits
  | cons record rest ih =>
    cases more with
    | zero => exact iff_of_true (Nat.zero_le _) fits
    | succ more =>
      rw [acceptRecords, List.take_succ_cons, List.flatten_cons, List.length_append]
      split
      · next beyond => exact iff_of_false (Nat.not_succ_le_zero more) (by omega)
      · next room =>
        rw [List.length_cons, Nat.add_le_add_iff_right, ← Nat.add_assoc]
        exact ih (Nat.le_of_not_lt room) (Nat.le_of_succ_le_succ there)

end Accepted

section Flags

/-- Flags with the bits of the responder, for a query with these flags. -/
def replyFlags (asked : Nat) (authoritative truncated : Bool) (rcode : Nat) : Nat :=
  0x8000 ||| (asked &&& 0x0100) ||| (if authoritative then 0x0400 else 0) ||| (if truncated then 0x0200 else 0) ||| rcode

theorem replyFlags_lt {asked rcode : Nat} {authoritative truncated : Bool} (small : rcode < 8) :
    replyFlags asked authoritative truncated rcode < 65536 := by
  have bit : asked &&& 0x0100 < 2 ^ 16 := Nat.lt_of_le_of_lt Nat.and_le_right (by decide)
  refine Nat.or_lt_two_pow (n := 16) (Nat.or_lt_two_pow (Nat.or_lt_two_pow (Nat.or_lt_two_pow (by decide) bit) ?_) ?_)
    (by omega)
  · split <;> decide
  · split <;> decide

theorem replyFlags_truncated {asked rcode : Nat} {authoritative truncated : Bool} (small : rcode < 8) :
    (replyFlags asked authoritative truncated rcode).testBit 9 = truncated := by
  have code : rcode.testBit 9 = false := Nat.testBit_lt_two_pow (by omega)
  have recursion : (0x0100 : Nat).testBit 9 = false := by decide
  have response : (0x8000 : Nat).testBit 9 = false := by decide
  have authority : (if authoritative then 0x0400 else 0 : Nat).testBit 9 = false := by split <;> decide
  have truncation : (if truncated then 0x0200 else 0 : Nat).testBit 9 = truncated := by cases truncated <;> decide
  simp only [replyFlags, Nat.testBit_or, Nat.testBit_and, code, recursion, response, authority, truncation, Bool.and_false,
    Bool.or_false, Bool.false_or]

end Flags

section Message

variable {records : List DnsRecord}

theorem length_recordOctets_pos (record : DnsRecord) : 1 ≤ (recordOctets record).length := by
  simp only [recordOctets, List.length_append, length_beOctets]
  omega

theorem length_le_flatMap (records : List DnsRecord) : records.length ≤ (records.flatMap recordOctets).length := by
  induction records with
  | nil => exact Nat.le_refl _
  | cons record rest ih =>
    have positive := length_recordOctets_pos record
    rw [List.flatMap_cons, List.length_cons, List.length_append]
    omega

/-- A reply to a question, or to none, as a message: its records are the first ones of the draft's, as many as fit. -/
theorem reply_eq (tcp : Bool) (id asked : Nat) {questions : List DnsQuestion} {draft : DnsDraft}
    {answers authorities : List DnsRecord} (one : questions.length ≤ 1) (answered : draft.answers = answers.map recordOctets)
    (others : draft.authorities = authorities.map recordOctets) :
    ∃ count, count ≤ answers.length + authorities.length ∧
      reply tcp id (0x8000 ||| (asked &&& 0x0100)) (questions.flatMap questionOctets) draft = messageOctets {
        id
        flags := replyFlags asked draft.authoritative (decide (count < answers.length + authorities.length)) draft.rcode
        questions
        answers := answers.take count
        authorities := authorities.take (count - answers.length)
        additionals := [] } ∧
      (12 + (questions.flatMap questionOctets).length ≤ replyLimit tcp → ∀ more ≤ answers.length + authorities.length,
        (more ≤ count ↔ 12 + (questions.flatMap questionOctets).length +
          ((answers.take more ++ authorities.take (more - answers.length)).flatMap recordOctets).length ≤
            replyLimit tcp)) := by
  have whole : draft.answers ++ draft.authorities = (answers ++ authorities).map recordOctets := by
    rw [answered, others, List.map_append]
  generalize start : 12 + (questions.flatMap questionOctets).length = length
  have first := acceptRecords_prefix (replyLimit tcp) length ((answers ++ authorities).map recordOctets)
  have bound := first.length_le
  rw [List.length_map, List.length_append] at bound
  have taken : acceptRecords (replyLimit tcp) length ((answers ++ authorities).map recordOctets) =
      (answers.take (acceptRecords (replyLimit tcp) length ((answers ++ authorities).map recordOctets)).length ++
        authorities.take ((acceptRecords (replyLimit tcp) length ((answers ++ authorities).map recordOctets)).length -
          answers.length)).map recordOctets := by
    rw [← List.take_append, List.map_take]
    exact List.prefix_iff_eq_take.mp first
  refine ⟨(acceptRecords (replyLimit tcp) length ((answers ++ authorities).map recordOctets)).length, bound, ?_,
    fun fits more there => ?_⟩
  · have questionCount : (if questions.flatMap questionOctets = [] then 0 else 1) = questions.length := by
      cases questions with
      | nil => rfl
      | cons question rest =>
        have none : rest = [] := by
          rw [← List.length_eq_zero_iff]
          rw [List.length_cons] at one
          omega
        subst none
        refine if_neg fun empty => ?_
        have size := congrArg List.length empty
        simp [questionOctets] at size
    unfold reply
    dsimp only
    rw [whole, start, answered]
    generalize acceptRecords (replyLimit tcp) length ((answers ++ authorities).map recordOctets) = accepted at taken bound ⊢
    have answerCount : min accepted.length (answers.map recordOctets).length = (answers.take accepted.length).length := by
      rw [List.length_map, List.length_take]
    have otherCount : accepted.length - min accepted.length (answers.map recordOctets).length =
        (authorities.take (accepted.length - answers.length)).length := by
      rw [List.length_map, List.length_take]
      omega
    have flat : accepted.flatten = (answers.take accepted.length).flatMap recordOctets ++
        (authorities.take (accepted.length - answers.length)).flatMap recordOctets := by
      rw [List.flatMap_def, List.flatMap_def, ← List.flatten_append, ← List.map_append, ← taken]
    rw [questionCount, otherCount, answerCount, flat, List.length_map, List.length_append]
    simp only [messageOctets, replyFlags, u16, decide_eq_true_eq, List.flatMap_nil, List.length_nil, List.append_nil,
      List.append_assoc]
  · rw [le_length_acceptRecords fits (by rw [List.length_map, List.length_append]; exact there), ← List.map_take,
      List.take_append, List.flatMap_def]

theorem length_messageOctets (message : DnsMessage) (none : message.additionals = []) :
    (messageOctets message).length = 12 + (message.questions.flatMap questionOctets).length +
      ((message.answers ++ message.authorities).flatMap recordOctets).length := by
  rw [messageOctets, none, List.flatMap_append]
  simp only [List.length_append, length_beOctets, List.flatMap_nil, List.length_nil]
  omega

theorem length_questionOctets {question : DnsQuestion} (well : question.Well) : (questionOctets question).length ≤ 259 := by
  have short := well.name.short
  simp only [questionOctets, List.length_append, length_beOctets]
  omega

theorem replyLimit_ge (tcp : Bool) : 512 ≤ replyLimit tcp ∧ replyLimit tcp ≤ 16384 := by
  cases tcp <;> decide

/-- A reply is read back as a message of at most the limit, with the first records of the draft, and it is marked as
truncated when it has not all of them. -/
theorem reply_message (tcp : Bool) {id : Nat} (asked : Nat) (questions : List DnsQuestion) (draft : DnsDraft)
    (answers authorities : List DnsRecord) (one : questions.length ≤ 1) (answered : draft.answers = answers.map recordOctets)
    (others : draft.authorities = authorities.map recordOctets) (small : id < 65536) (code : draft.rcode < 8)
    (askedWell : ∀ question ∈ questions, question.Well) (answersWell : ∀ record ∈ answers, record.Well)
    (othersWell : ∀ record ∈ authorities, record.Well) :
    ∃ message, reply tcp id (0x8000 ||| (asked &&& 0x0100)) (questions.flatMap questionOctets) draft =
        messageOctets message ∧ message.Well ∧ (messageOctets message).length ≤ replyLimit tcp ∧ message.id = id ∧
      message.questions = questions ∧ (∀ record ∈ message.answers, record ∈ answers) ∧ message.additionals = [] ∧
      (message.flags.testBit 9 = true ↔
        message.answers.length + message.authorities.length < answers.length + authorities.length) := by
  obtain ⟨count, bound, same, fits⟩ := reply_eq tcp id asked one answered others
  obtain ⟨lower, upper⟩ := replyLimit_ge tcp
  have brief : (questions.flatMap questionOctets).length ≤ 259 := by
    cases questions with
    | nil => exact Nat.zero_le _
    | cons question rest =>
      have none : rest = [] := by
        rw [← List.length_eq_zero_iff]
        rw [List.length_cons] at one
        omega
      rw [none, List.flatMap_cons, List.flatMap_nil, List.append_nil]
      exact length_questionOctets (askedWell question List.mem_cons_self)
  have within := (fits (by omega) count bound).mp (Nat.le_refl count)
  have counted := length_le_flatMap (answers.take count ++ authorities.take (count - answers.length))
  rw [List.length_append] at counted
  refine ⟨_, same, ⟨small, replyFlags_lt code, ⟨by dsimp only; omega, askedWell⟩,
    ⟨by dsimp only; omega, fun record member => answersWell record (List.mem_of_mem_take member)⟩,
    ⟨by dsimp only; omega, fun record member => othersWell record (List.mem_of_mem_take member)⟩,
    ⟨show 0 < 65536 by decide, fun record member => (by cases member)⟩⟩, ?_, rfl, rfl, fun record => List.mem_of_mem_take, rfl, ?_⟩
  · rw [length_messageOctets _ rfl]
    exact within
  · dsimp only
    rw [replyFlags_truncated code, decide_eq_true_eq, List.length_take, List.length_take]
    omega

end Message

section Replies

variable {zone : LanDnsZone} {values : ChallengeValues} {packet octets : Octets} {tcp : Bool}

/-- A query with one question that is read. -/
def Asked (packet : Octets) (query : DnsQuery) : Prop :=
  readUInt16BE packet 2 &&& 0x7800 = 0 ∧ readUInt16BE packet 4 = 1 ∧ question packet = .ok query

/-- The one question of a query is read, and its name has a capital letter. -/
def AsksInCapitals (packet : Octets) : Prop :=
  ∃ query name rest, Asked packet query ∧ readName (packet.drop 12) = some (name, rest) ∧
    ∃ label ∈ name, ∃ octet ∈ label, 0x41 ≤ octet.toNat ∧ octet.toNat ≤ 0x5a

/-- What a message says about the packet it replies to: its id, its question in lower case, answers of the queried
name and type in the zone, addresses that the name encodes, and whether records were left out. -/
structure MessageSound (zone : LanDnsZone) (values : ChallengeValues) (packet : Octets) (message : DnsMessage) : Prop where
  id : message.id = readUInt16BE packet 0
  one : message.questions.length ≤ 1
  asked : ∀ q ∈ message.questions, ∃ name, StandsAt packet 12 (questionOctets { q with name }) ∧
    q.name = name.map (·.map lowerOctet)
  answered : ∀ record ∈ message.answers, ∃ q ∈ message.questions, record.name = q.name ∧ record.type = q.type ∧
    record.qclass = 1 ∧ labelsOf zone.domain <:+ record.name
  addresses : ∀ record ∈ message.answers, record.type = DnsType.A.number ∨ record.type = DnsType.AAAA.number →
    ∃ label, record.name = ascii label :: labelsOf zone.domain ∧ record.data = encodedAddress label ∧
      (record.type = DnsType.A.number → ipv4Label label = true) ∧
      (record.type = DnsType.AAAA.number → ipv6Label label = true)
  additionals : message.additionals = []
  truncated : message.flags.testBit 9 = true ↔ message.answers.length + message.authorities.length <
    (zone.plan values packet).2.answers.length + (zone.plan values packet).2.authorities.length

/-- A reply keeps to the limit of its transport, and is read whole as a sound message. -/
def ReplySound (zone : LanDnsZone) (values : ChallengeValues) (packet : Octets) (tcp : Bool) (octets : Octets) : Prop :=
  octets.length ≤ replyLimit tcp ∧ ∃ message, readMessage octets = some message ∧ MessageSound zone values packet message

/-- A reply that carries a question has the octets of the query there. -/
def QuestionEchoed (packet octets : Octets) : Prop :=
  ∀ message, readMessage octets = some message → ∀ q ∈ message.questions,
    slice octets 12 (12 + (questionOctets q).length) = slice packet 12 (12 + (questionOctets q).length)

/-- The octets after the header are the question. -/
theorem slice_messageOctets {message : DnsMessage} {q : DnsQuestion} (one : message.questions = [q]) :
    slice (messageOctets message) 12 (12 + (questionOctets q).length) = questionOctets q := by
  have whole : messageOctets message = (beOctets 2 message.id ++ beOctets 2 message.flags ++
      beOctets 2 message.questions.length ++ beOctets 2 message.answers.length ++ beOctets 2 message.authorities.length ++
      beOctets 2 message.additionals.length) ++ (questionOctets q ++ (message.answers.flatMap recordOctets ++
      (message.authorities.flatMap recordOctets ++ message.additionals.flatMap recordOctets))) := by
    simp only [messageOctets, one, List.flatMap_cons, List.flatMap_nil, List.append_nil, List.append_assoc]
  have stands := standsAt_self (messageOctets message)
  nth_rewrite 2 [whole] at stands
  have after := (standsAt_append.mp stands).2
  have question := (standsAt_append.mp after).1
  simp only [List.length_append, length_beOctets] at question
  exact question.slice_eq

/-- What a packet is answered with: an error without question and records, or the draft for its question. -/
theorem plan_cases (zone : LanDnsZone) (values : ChallengeValues) (packet : Octets) :
    ((∀ query, ¬ Asked packet query) ∧ ∃ rcode, rcode < 8 ∧ zone.plan values packet = ([], .error rcode false)) ∨
    ∃ query, Asked packet query ∧ zone.plan values packet = (questionSection query, zone.draft values query) := by
  unfold LanDnsZone.plan
  split
  · next opcode => exact .inl ⟨fun query asked => opcode asked.1, 4, by decide, rfl⟩
  · next opcode =>
    split
    · next count => exact .inl ⟨fun query asked => count asked.2.1, 1, by decide, rfl⟩
    · next count =>
      split
      · next failed =>
        refine .inl ⟨fun query asked => ?_, 1, by decide, rfl⟩
        cases failed.symm.trans asked.2.2
      · next query read => exact .inr ⟨query, ⟨by simpa using opcode, by simpa using count, read⟩, rfl⟩

theorem readUInt16BE_lt (packet : Octets) (offset : Nat) : readUInt16BE packet offset < 65536 := by
  have bound := bigEndian_lt (slice packet offset (offset + 2))
  have size : (slice packet offset (offset + 2)).length ≤ 2 := by
    rw [slice, List.length_take]
    omega
  exact Nat.lt_of_lt_of_le bound (Nat.pow_le_pow_right (by decide) size)

theorem exists_records {P : DnsRecord → Prop} {octets : List Octets}
    (each : ∀ part ∈ octets, ∃ record : DnsRecord, part = recordOctets record ∧ P record) :
    ∃ records : List DnsRecord, octets = records.map recordOctets ∧ ∀ record ∈ records, P record := by
  induction octets with
  | nil => exact ⟨[], rfl, fun record member => (by cases member)⟩
  | cons part rest ih =>
    obtain ⟨record, rfl, holds⟩ := each part List.mem_cons_self
    obtain ⟨records, rfl, all⟩ := ih fun other member => each other (List.mem_cons_of_mem _ member)
    refine ⟨record :: records, rfl, fun other member => ?_⟩
    rcases List.mem_cons.mp member with rfl | later
    · exact holds
    · exact all other later

theorem questionOctets_inj {first second : DnsQuestion} (well : first.Well) (other : second.Well)
    (same : questionOctets first = questionOctets second) : first = second := by
  have left : readQuestion (questionOctets first ++ []) = some (first, []) := readQuestion_questionOctets well
  rw [same, readQuestion_questionOctets other] at left
  exact (Prod.mk.inj (Option.some.inj left)).1.symm

theorem length_lowered (name : DnsName) : (nameOctets (name.map (·.map lowerOctet))).length = (nameOctets name).length := by
  rw [length_nameOctets, length_nameOctets, List.map_map]
  congr 3
  funext label
  simp

/-- The reply to a question that is read: sound, and its question is that of the query in lower case. -/
theorem respond_asked (zone : LanDnsZone) (values : ChallengeValues) (tcp : Bool) {query : DnsQuery} (asked : Asked packet query) (answerable : Answerable packet) :
    ∃ name octets, zone.respond values packet tcp = some octets ∧ ReplySound zone values packet tcp octets ∧
      StandsAt packet 12 (questionOctets { name, type := query.type, qclass := query.qclass }) ∧ name.Well ∧
      (QuestionEchoed packet octets ↔ name.map (·.map lowerOctet) = name) := by
  obtain ⟨name, some, well, chars, named, stands, typeSmall, classSmall⟩ := question_ok asked.2.2
  obtain ⟨labels, short, lower⟩ := labelsOf_query some well chars
  rw [← named] at labels short lower
  obtain ⟨answers, others, code⟩ := draft_sound zone values short lower typeSmall
  obtain ⟨answerRecords, answered, answersSound⟩ := exists_records answers
  obtain ⟨otherRecords, other, othersWell⟩ := exists_records others
  have planned : zone.plan values packet = (questionSection query, zone.draft values query) := by
    rcases plan_cases zone values packet with ⟨never, _⟩ | ⟨again, asks, planned⟩
    · exact absurd asked (never query)
    · obtain rfl : query = again := Except.ok.inj (asked.2.2.symm.trans asks.2.2)
      exact planned
  let lowered : DnsQuestion := { name := labelsOf query.name, type := query.type, qclass := query.qclass }
  let original : DnsQuestion := { name, type := query.type, qclass := query.qclass }
  have loweredWell : lowered.Well := ⟨short.well, typeSmall, classSmall⟩
  have originalWell : original.Well := ⟨well, typeSmall, classSmall⟩
  have section' : questionSection query = [lowered].flatMap questionOctets := by
    rw [questionSection, dnsName_eq, List.flatMap_cons, List.flatMap_nil, List.append_nil]
    rfl
  obtain ⟨message, same, messageWell, fits, id, questions, listed, additionals, truncated⟩ :=
    reply_message tcp (readUInt16BE packet 2) [lowered] _ _ _ (Nat.le_refl 1) answered other
      (readUInt16BE_lt packet 0) code (fun question member => List.mem_singleton.mp member ▸ loweredWell)
      (fun record member => (answersSound record member).well) othersWell
  have replied : zone.respond values packet tcp = Option.some (messageOctets message) := by
    rw [LanDnsZone.respond, if_pos answerable, planned, ← same, ← section']
  have read := readMessage_messageOctets messageWell
  refine ⟨name, messageOctets message, replied, ⟨fits, message, read, ?_⟩, stands, well, ?_⟩
  · refine ⟨id, by rw [questions]; exact Nat.le_refl 1, fun q member => ?_, fun record member => ?_, fun record member address => ?_,
      additionals, ?_⟩
    · rw [questions] at member
      obtain rfl := List.mem_singleton.mp member
      exact ⟨name, stands, labels⟩
    · have sound := answersSound record (listed record member)
      exact ⟨lowered, by rw [questions]; exact List.mem_singleton_self _, sound.name, sound.type, sound.qclass, sound.inZone⟩
    · have sound := answersSound record (listed record member)
      obtain ⟨label, whole, absent, data, four, six⟩ := sound.address address
      exact ⟨label, by rw [sound.name, whole, labelsOf_append absent], data, four, six⟩
    · rw [planned, truncated, answered, other, List.length_map, List.length_map]
  · have length : (questionOctets lowered).length = (questionOctets original).length := by
      simp only [questionOctets, List.length_append, length_beOctets, lowered, original, labels, length_lowered]
    have asks : slice packet 12 (12 + (questionOctets lowered).length) = questionOctets original := by
      rw [length]
      exact stands.slice_eq
    constructor
    · intro echoed
      have octets := echoed message read lowered (by rw [questions]; exact List.mem_singleton_self _)
      rw [slice_messageOctets questions, asks] at octets
      have equal := congrArg DnsQuestion.name (questionOctets_inj loweredWell originalWell octets)
      exact labels.symm.trans equal
    · intro lower again reread q member
      obtain rfl := Option.some.inj (read.symm.trans reread)
      rw [questions] at member
      obtain rfl := List.mem_singleton.mp member
      rw [slice_messageOctets questions, asks]
      have equal : lowered = original := by
        simp only [lowered, original, labels, lower]
      rw [equal]

/-- The reply to a packet whose question is not read: an error that carries nothing. -/
theorem respond_unasked (zone : LanDnsZone) (values : ChallengeValues) (tcp : Bool) (never : ∀ query, ¬ Asked packet query) (answerable : Answerable packet) :
    ∃ octets, zone.respond values packet tcp = some octets ∧ ReplySound zone values packet tcp octets ∧
      QuestionEchoed packet octets := by
  rcases plan_cases zone values packet with ⟨_, rcode, code, planned⟩ | ⟨query, asked, _⟩
  · obtain ⟨message, same, messageWell, fits, id, questions, listed, additionals, truncated⟩ :=
      reply_message tcp (readUInt16BE packet 2) [] (.error rcode false) [] [] (Nat.zero_le _) rfl rfl (readUInt16BE_lt packet 0) code (fun question member => by cases member)
        (fun record member => by cases member) fun record member => by cases member
    have read := readMessage_messageOctets messageWell
    refine ⟨messageOctets message, ?_, ⟨fits, message, read, ?_⟩, fun again reread q member => ?_⟩
    · rw [LanDnsZone.respond, if_pos answerable, planned, ← same]
      rfl
    · refine ⟨id, by rw [questions]; exact Nat.zero_le _, fun q member => ?_, fun record member => ?_,
        fun record member _ => ?_, additionals, ?_⟩
      · rw [questions] at member
        cases member
      · cases listed record member
      · cases listed record member
      · rw [planned]
        exact truncated
    · obtain rfl := Option.some.inj (read.symm.trans reread)
      rw [questions] at member
      cases member
  · exact absurd asked (never query)

/-- A question that is read stands behind the header as plain labels. -/
theorem readName_of_stands {name : DnsName} {type qclass : Nat} (well : name.Well)
    (stands : StandsAt packet 12 (questionOctets { name, type, qclass })) :
    ∃ rest, readName (packet.drop 12) = some (name, rest) := by
  obtain ⟨after, whole⟩ := stands
  rw [← whole, questionOctets, List.append_assoc, List.append_assoc]
  exact ⟨_, readName_nameOctets well⟩

theorem map_eq_self {α : Type} {change : α → α} {entries : List α} :
    entries.map change = entries ↔ ∀ entry ∈ entries, change entry = entry := by
  have whole : entries.map id = entries := List.map_id entries
  nth_rewrite 2 [← whole]
  exact List.map_inj_left

/-- Letters are kept as they are when none is a capital. -/
theorem lowered_eq_iff {name : DnsName} : name.map (·.map lowerOctet) = name ↔
    ¬ ∃ label ∈ name, ∃ octet ∈ label, 0x41 ≤ octet.toNat ∧ octet.toNat ≤ 0x5a := by
  rw [map_eq_self]
  constructor
  · rintro same ⟨label, listed, octet, member, capital⟩
    exact lowerOctet_eq_iff.mp (map_eq_self.mp (same label listed) octet member) capital
  · intro small label listed
    refine map_eq_self.mpr fun octet member => lowerOctet_eq_iff.mpr fun capital => ?_
    exact small ⟨label, listed, octet, member, capital⟩

/-- A packet that is answered gets a sound reply, with its question as it is when that has no capital letter. -/
theorem respond_echoes (zone : LanDnsZone) (values : ChallengeValues) (tcp : Bool) (answerable : Answerable packet) :
    ∃ octets, zone.respond values packet tcp = some octets ∧ ReplySound zone values packet tcp octets ∧
      (QuestionEchoed packet octets ↔ ¬ AsksInCapitals packet) := by
  by_cases asked : ∃ query, Asked packet query
  · obtain ⟨query, asked⟩ := asked
    obtain ⟨name, octets, replied, sound, stands, well, echoed⟩ := respond_asked zone values tcp asked answerable
    obtain ⟨rest, read⟩ := readName_of_stands well stands
    refine ⟨octets, replied, sound, echoed.trans (lowered_eq_iff.trans (not_congr ⟨fun capital => ?_, ?_⟩))⟩
    · exact ⟨query, name, rest, asked, read, capital⟩
    · rintro ⟨_, other, _, _, again, capital⟩
      obtain ⟨rfl, _⟩ := Prod.mk.inj (Option.some.inj (read.symm.trans again))
      exact capital
  · have never : ∀ query, ¬ Asked packet query := fun query this => asked ⟨query, this⟩
    obtain ⟨octets, replied, sound, echoed⟩ := respond_unasked zone values tcp never answerable
    exact ⟨octets, replied, sound, fun _ ⟨query, _, _, this, _⟩ => never query this, fun _ => echoed⟩

end Replies

section Claims

/-- Every reply is sound, whatever it replies to; it has the question of the query octet for octet exactly when the name
there has no capital letter; and a question is read as plain labels that stand in the packet, so no pointer is
followed. -/
theorem respond_well_iff (zone : LanDnsZone) (values : ChallengeValues) (packet : Octets) (tcp : Bool) :
    (∀ octets, zone.respond values packet tcp = some octets → ReplySound zone values packet tcp octets) ∧
    ((∀ octets, zone.respond values packet tcp = some octets →
        ReplySound zone values packet tcp octets ∧ QuestionEchoed packet octets) ↔
      ¬ (Answerable packet ∧ AsksInCapitals packet)) ∧
    ∀ query, question packet = .ok query → ∃ name : DnsName, name.Well ∧ query.name = joinText '.' (name.map queryLabel) ∧
      StandsAt packet 12 (questionOctets { name, type := query.type, qclass := query.qclass }) := by
  have answered : ∀ octets, zone.respond values packet tcp = some octets → Answerable packet ∧
      ReplySound zone values packet tcp octets ∧ (QuestionEchoed packet octets ↔ ¬ AsksInCapitals packet) := by
    intro octets replied
    by_cases answerable : Answerable packet
    · obtain ⟨same, again, sound, echoed⟩ := respond_echoes zone values tcp answerable
      obtain rfl := Option.some.inj (replied.symm.trans again)
      exact ⟨answerable, sound, echoed⟩
    · rw [LanDnsZone.respond, if_neg answerable] at replied
      cases replied
  refine ⟨fun octets replied => (answered octets replied).2.1, ⟨fun all both => ?_, fun small octets replied => ?_⟩,
    fun query read => ?_⟩
  · obtain ⟨octets, replied, _, echoed⟩ := respond_echoes zone values tcp both.1
    exact echoed.mp (all octets replied).2 both.2
  · obtain ⟨answerable, sound, echoed⟩ := answered octets replied
    exact ⟨sound, echoed.mpr fun capital => small ⟨answerable, capital⟩⟩
  · obtain ⟨name, _, well, _, named, stands, _⟩ := question_ok read
    exact ⟨name, well, named, stands⟩

/-- A zone. -/
def exampleZone : LanDnsZone where
  domain := "lan.example.test".toList
  nameserver := "ns1.example.test".toList
  caaIssuers := defaultCaaIssuers
  domainNormal := ⟨"lan.example.test".toList, by decide⟩
  nameserverNormal := ⟨"ns1.example.test".toList, by decide⟩
  issuersFew := by decide
  issuersNormal := by decide

/-- A query for the start of authority, with a capital letter. -/
def capitalQuery : Octets :=
  [4, 210, 1, 0, 0, 1, 0, 0, 0, 0, 0, 0] ++
    questionSection { name := "Lan.example.test".toList, type := DnsType.SOA.number, qclass := 1 }

/-- The reply to it does not have its question. -/
theorem respond_capitalQuery : ¬ ∀ octets, exampleZone.respond (fun _ => some []) capitalQuery false = some octets →
    ReplySound exampleZone (fun _ => some []) capitalQuery false octets ∧ QuestionEchoed capitalQuery octets := by
  intro all
  have answerable : Answerable capitalQuery := by decide
  obtain ⟨octets, replied, _, echoed⟩ := respond_echoes exampleZone (fun _ => some []) false answerable
  refine echoed.mp (all octets replied).2 ⟨{ name := "lan.example.test".toList, type := 6, qclass := 1 },
    [ascii "Lan".toList, ascii "example".toList, ascii "test".toList], [0, 6, 0, 1], ⟨by decide, by decide, rfl⟩, rfl,
    ascii "Lan".toList, by decide, 76, by decide, by decide⟩

end Claims

end LatexRenderer
