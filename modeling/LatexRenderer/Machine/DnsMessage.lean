import LatexRenderer.Machine.Octets

/-! # DNS messages

A message is a header of six numbers, then questions and three lists of records. The reader takes names without
compression and reads exactly as many entries as the header counts, up to the last octet; it reads back what is
written.
-/

namespace Machine

/-- A name: its labels, without the root. -/
abbrev DnsName : Type := List Octets

/-- A name as octets. -/
def nameOctets (name : DnsName) : Octets := (name.flatMap fun label => UInt8.ofNat label.length :: label) ++ [0]

/-- Labels have 1 to 63 octets, and a name has at most 255. -/
structure DnsName.Well (name : DnsName) : Prop where
  labels : ∀ label ∈ name, 1 ≤ label.length ∧ label.length ≤ 63
  short : (nameOctets name).length ≤ 255

/-- The rest of a label of which some octets are left, the labels after it, and what follows the name. -/
def readLabels : Nat → Octets → Option (Octets × DnsName × Octets)
  | _, [] => none
  | 0, length :: rest =>
    if length = 0 then some ([], [], rest)
    else if 63 < length.toNat then none
    else (readLabels length.toNat rest).map fun read => ([], read.1 :: read.2.1, read.2.2)
  | left + 1, octet :: rest => (readLabels left rest).map fun read => (octet :: read.1, read.2)

/-- Read a name. A label longer than 63 octets, which a compression pointer would be, is refused. -/
def readName (data : Octets) : Option (DnsName × Octets) :=
  match readLabels 0 data with
  | some (_, name, rest) => if (nameOctets name).length ≤ 255 then some (name, rest) else none
  | none => none

/-- Read a number of so many octets. -/
def readNumber (width : Nat) (data : Octets) : Option (Nat × Octets) :=
  if width ≤ data.length then some (bigEndian (data.take width), data.drop width) else none

/-- An entry of the question section. -/
structure DnsQuestion where
  name : DnsName
  type : Nat
  qclass : Nat
deriving DecidableEq

/-- A resource record. -/
structure DnsRecord where
  name : DnsName
  type : Nat
  qclass : Nat
  ttl : Nat
  data : Octets
deriving DecidableEq

/-- A message. -/
structure DnsMessage where
  id : Nat
  flags : Nat
  questions : List DnsQuestion
  answers : List DnsRecord
  authorities : List DnsRecord
  additionals : List DnsRecord
deriving DecidableEq

def questionOctets (question : DnsQuestion) : Octets :=
  nameOctets question.name ++ beOctets 2 question.type ++ beOctets 2 question.qclass

def recordOctets (record : DnsRecord) : Octets :=
  nameOctets record.name ++ beOctets 2 record.type ++ beOctets 2 record.qclass ++ beOctets 4 record.ttl ++
    beOctets 2 record.data.length ++ record.data

/-- A message as octets. -/
def messageOctets (message : DnsMessage) : Octets :=
  beOctets 2 message.id ++ beOctets 2 message.flags ++ beOctets 2 message.questions.length ++
    beOctets 2 message.answers.length ++ beOctets 2 message.authorities.length ++
    beOctets 2 message.additionals.length ++ message.questions.flatMap questionOctets ++
    message.answers.flatMap recordOctets ++ message.authorities.flatMap recordOctets ++
    message.additionals.flatMap recordOctets

/-- Read a question. -/
def readQuestion (data : Octets) : Option (DnsQuestion × Octets) := do
  let (name, data) ← readName data
  let (type, data) ← readNumber 2 data
  let (qclass, data) ← readNumber 2 data
  some ({ name, type, qclass }, data)

/-- Read a record. -/
def readRecord (data : Octets) : Option (DnsRecord × Octets) := do
  let (name, data) ← readName data
  let (type, data) ← readNumber 2 data
  let (qclass, data) ← readNumber 2 data
  let (ttl, data) ← readNumber 4 data
  let (length, data) ← readNumber 2 data
  if length ≤ data.length then some ({ name, type, qclass, ttl, data := data.take length }, data.drop length) else none

/-- Read so many entries. -/
def readMany {α : Type} (read : Octets → Option (α × Octets)) : Nat → Octets → Option (List α × Octets)
  | 0, data => some ([], data)
  | count + 1, data => do
    let (entry, data) ← read data
    let (entries, data) ← readMany read count data
    some (entry :: entries, data)

/-- Read a message up to its last octet. -/
def readMessage (data : Octets) : Option DnsMessage := do
  let (id, data) ← readNumber 2 data
  let (flags, data) ← readNumber 2 data
  let (questionCount, data) ← readNumber 2 data
  let (answerCount, data) ← readNumber 2 data
  let (authorityCount, data) ← readNumber 2 data
  let (additionalCount, data) ← readNumber 2 data
  let (questions, data) ← readMany readQuestion questionCount data
  let (answers, data) ← readMany readRecord answerCount data
  let (authorities, data) ← readMany readRecord authorityCount data
  let (additionals, data) ← readMany readRecord additionalCount data
  if data = [] then some { id, flags, questions, answers, authorities, additionals } else none

/-- A question that can be written. -/
structure DnsQuestion.Well (question : DnsQuestion) : Prop where
  name : question.name.Well
  type : question.type < 65536
  qclass : question.qclass < 65536

/-- A record that can be written. -/
structure DnsRecord.Well (record : DnsRecord) : Prop where
  name : record.name.Well
  type : record.type < 65536
  qclass : record.qclass < 65536
  ttl : record.ttl < 4294967296
  data : record.data.length < 65536

/-- A message that can be written. -/
structure DnsMessage.Well (message : DnsMessage) : Prop where
  id : message.id < 65536
  flags : message.flags < 65536
  questions : message.questions.length < 65536 ∧ ∀ question ∈ message.questions, question.Well
  answers : message.answers.length < 65536 ∧ ∀ record ∈ message.answers, record.Well
  authorities : message.authorities.length < 65536 ∧ ∀ record ∈ message.authorities, record.Well
  additionals : message.additionals.length < 65536 ∧ ∀ record ∈ message.additionals, record.Well

section Read

variable {rest : Octets}

@[simp] theorem nameOctets_nil : nameOctets [] = [0] := rfl

@[simp] theorem nameOctets_cons (label : Octets) (name : DnsName) :
    nameOctets (label :: name) = UInt8.ofNat label.length :: (label ++ nameOctets name) := by
  simp [nameOctets]

theorem readLabels_append (label data : Octets) :
    readLabels label.length (label ++ data) = (readLabels 0 data).map fun read => (label ++ read.1, read.2) := by
  induction label with
  | nil => simp
  | cons octet label ih =>
    rw [List.length_cons, List.cons_append, readLabels, ih, Option.map_map]
    rfl

theorem readLabels_nameOctets {name : DnsName} (labels : ∀ label ∈ name, 1 ≤ label.length ∧ label.length ≤ 63) :
    readLabels 0 (nameOctets name ++ rest) = some ([], name, rest) := by
  induction name with
  | nil => rfl
  | cons label name ih =>
    obtain ⟨some, short⟩ := labels label List.mem_cons_self
    have length : (UInt8.ofNat label.length).toNat = label.length := by
      rw [UInt8.toNat_ofNat']
      omega
    have positive : UInt8.ofNat label.length ≠ 0 := by
      intro zero
      have none : label.length = 0 := length.symm.trans (congrArg UInt8.toNat zero)
      omega
    rw [nameOctets_cons, List.cons_append, readLabels, if_neg positive, length, if_neg (by omega), List.append_assoc,
      readLabels_append, ih fun other member => labels other (List.mem_cons_of_mem _ member)]
    simp

theorem readName_nameOctets {name : DnsName} (well : name.Well) : readName (nameOctets name ++ rest) = some (name, rest) := by
  rw [readName, readLabels_nameOctets well.labels]
  exact if_pos well.short

theorem readNumber_beOctets (width : Nat) {value : Nat} (fits : value < 256 ^ width) :
    readNumber width (beOctets width value ++ rest) = some (value, rest) := by
  have length := length_beOctets width value
  have enough : width ≤ (beOctets width value ++ rest).length := by
    rw [List.length_append]
    omega
  rw [readNumber, if_pos enough, List.take_left' length, List.drop_left' length, bigEndian_beOctets fits]

theorem readQuestion_questionOctets {question : DnsQuestion} (well : question.Well) :
    readQuestion (questionOctets question ++ rest) = some (question, rest) := by
  simp only [readQuestion, questionOctets, List.append_assoc, readName_nameOctets well.name,
    readNumber_beOctets 2 well.type, readNumber_beOctets 2 well.qclass, Option.bind_eq_bind,
    Option.bind_some]

theorem readRecord_recordOctets {record : DnsRecord} (well : record.Well) :
    readRecord (recordOctets record ++ rest) = some (record, rest) := by
  simp only [readRecord, recordOctets, List.append_assoc, readName_nameOctets well.name,
    readNumber_beOctets 2 well.type, readNumber_beOctets 2 well.qclass,
    readNumber_beOctets 4 well.ttl, readNumber_beOctets 2 well.data, Option.bind_eq_bind,
    Option.bind_some, List.length_append, List.take_left, List.drop_left]
  exact if_pos (Nat.le_add_right _ _)

/-- Entries that are written one after the other are read back. -/
theorem readMany_flatMap {α : Type} {read : Octets → Option (α × Octets)} {write : α → Octets} {entries : List α}
    (each : ∀ entry ∈ entries, ∀ rest, read (write entry ++ rest) = some (entry, rest)) :
    readMany read entries.length (entries.flatMap write ++ rest) = some (entries, rest) := by
  induction entries with
  | nil => rfl
  | cons entry entries ih =>
    have later := ih fun other member => each other (List.mem_cons_of_mem _ member)
    simp only [List.length_cons, List.flatMap_cons, List.append_assoc, readMany, each entry List.mem_cons_self, later,
      Option.bind_eq_bind, Option.bind_some]

/-- A message is read back. -/
theorem readMessage_messageOctets {message : DnsMessage} (well : message.Well) :
    readMessage (messageOctets message) = some message := by
  have questions : ∀ rest, readMany readQuestion message.questions.length
      (message.questions.flatMap questionOctets ++ rest) = some (message.questions, rest) := fun rest =>
    readMany_flatMap fun question member _ => readQuestion_questionOctets (well.questions.2 question member)
  have records : ∀ records : List DnsRecord, (∀ record ∈ records, record.Well) → ∀ rest,
      readMany readRecord records.length (records.flatMap recordOctets ++ rest) = some (records, rest) :=
    fun records each rest => readMany_flatMap fun record member _ => readRecord_recordOctets (each record member)
  have additionals := records message.additionals well.additionals.2 []
  rw [List.append_nil] at additionals
  simp only [readMessage, messageOctets, List.append_assoc, readNumber_beOctets 2 well.id,
    readNumber_beOctets 2 well.flags, readNumber_beOctets 2 well.questions.1,
    readNumber_beOctets 2 well.answers.1, readNumber_beOctets 2 well.authorities.1,
    readNumber_beOctets 2 well.additionals.1, questions, records _ well.answers.2,
    records _ well.authorities.2, additionals, Option.bind_eq_bind, Option.bind_some, if_true]

end Read

end Machine
