import LatexRenderer.Machine.Octets
import LatexRenderer.Model.Deploy.LanAddress

/-! # The DNS responder of the LAN domain

A packet is answered from its one question: the zone's own records, challenge values, or the address that a name
encodes. Every answer goes through one `reply`, which takes whole records as long as they fit.
-/

namespace LatexRenderer

open Machine

/-- `Buffer.from` of ASCII text. -/
def ascii (text : Text) : Octets := text.map fun c => UInt8.ofNat c.toNat

/-- `toLowerCase`, of text whose other letters do not matter. -/
def lowerText (text : Text) : Text := text.map Char.toLower

def u16 (n : Nat) : Octets := beOctets 2 n

def u32 (n : Nat) : Octets := beOctets 4 n

def readUInt16BE (packet : Octets) (offset : Nat) : Nat := bigEndian (slice packet offset (offset + 2))

inductive DnsType where
  | A
  | NS
  | SOA
  | TXT
  | AAAA
  | CAA
deriving DecidableEq

/-- The number of a type. -/
def DnsType.number : DnsType → Nat
  | .A => 1
  | .NS => 2
  | .SOA => 6
  | .TXT => 16
  | .AAAA => 28
  | .CAA => 257

def dnsName (name : Text) : Octets :=
  ((splitText '.' name).flatMap fun label => UInt8.ofNat label.length :: ascii label) ++ [0]

def rr (name : Text) (type ttl : Nat) (data : Octets) : Octets :=
  dnsName name ++ u16 type ++ u16 1 ++ u32 ttl ++ u16 data.length ++ data

/-- Why a question is not read. -/
inductive DnsQuestionError where
  | terminator
  | label
  | labelBytes
  | tooLong
  | question
deriving DecidableEq, Repr

/-- The texts of the errors. -/
def DnsQuestionError.message : DnsQuestionError → String
  | .terminator => "DNS name missing terminator"
  | .label => "Invalid DNS label"
  | .labelBytes => "Invalid DNS label bytes"
  | .tooLong => "DNS name too long"
  | .question => "Invalid DNS question"

/-- The class of `/^[a-z0-9_-]+$/`. -/
def queryLabelChar (c : Char) : Bool := c.isLower || c.isDigit || c == '_' || c == '-'

/-- The label of so many octets, as `toString("latin1").toLowerCase()` gives it where the octets are accepted. -/
def queryLabel (octets : Octets) : Text := lowerText (octets.map fun octet => Char.ofNat octet.toNat)

/-- The loop of `question`: the labels, and the offset after the name. A turn adds at least two to `bytes`, so 255 turns
are more than there can be. -/
def questionLabels (packet : Octets) : Nat → Nat → Nat → List Text → Except DnsQuestionError (List Text × Nat)
  | 0, _, _, _ => .error .tooLong
  | turns + 1, offset, bytes, labels =>
    match packet[offset]? with
    | none => .error .terminator
    | some length =>
      if length = 0 then .ok (labels, offset + 1)
      else if 63 < length.toNat ∨ packet.length < offset + 1 + length.toNat then .error .label
      else
        let label := queryLabel (slice packet (offset + 1) (offset + 1 + length.toNat))
        if label = [] ∨ ¬ label.all queryLabelChar then .error .labelBytes
        else if 254 < bytes + length.toNat + 1 then .error .tooLong
        else questionLabels packet turns (offset + 1 + length.toNat) (bytes + length.toNat + 1) (labels ++ [label])

/-- What `question` reads. -/
structure DnsQuery where
  name : Text
  type : Nat
  qclass : Nat
deriving DecidableEq

def question (packet : Octets) : Except DnsQuestionError DnsQuery := do
  let (labels, offset) ← questionLabels packet 255 12 0 []
  demand (labels ≠ [] ∧ offset + 4 ≤ packet.length) .question
  pure { name := joinText '.' labels, type := readUInt16BE packet offset, qclass := readUInt16BE packet (offset + 2) }

/-- `ipv6Bytes`, of an address that is one. -/
def ipv6Bytes (address : Text) : Octets :=
  match ipv6? address with
  | some words => (canonicalWords (ipv6Hostname words)).flatMap fun word => u16 (numberText 16 word)
  | none => []

/-- The policy of a responder that was created. -/
structure LanDnsZone where
  domain : Text
  nameserver : Text
  caaIssuers : List Text
  domainNormal : ∃ value, normalizeLanHttpsDomain value = .ok domain
  nameserverNormal : ∃ value, normalizeLanHttpsDomain value = .ok nameserver
  issuersFew : 1 ≤ caaIssuers.length ∧ caaIssuers.length ≤ 8
  issuersNormal : ∀ issuer ∈ caaIssuers, normalizeLanHttpsDomain issuer = .ok issuer

/-- Why a policy is refused. -/
inductive LanDnsError where
  | name (error : LanNameError)
  | issuers
deriving DecidableEq

/-- The text of the error. -/
def LanDnsError.message : LanDnsError → String
  | .name error => error.message
  | .issuers => "Invalid DNS CAA issuer policy"

/-- The issuers when none are given. -/
def defaultCaaIssuers : List Text := ["letsencrypt.org".toList, "sectigo.com".toList]

/-- `createLanHttpsDnsResponder`, up to the responder. -/
def createLanDnsZone (domain nameserver : Text) (caaIssuers : Option (List Text)) : Except LanDnsError LanDnsZone :=
  match domainNormal : normalizeLanHttpsDomain domain, nameserverNormal : normalizeLanHttpsDomain nameserver with
  | .error error, _ => .error (.name error)
  | .ok _, .error error => .error (.name error)
  | .ok normalDomain, .ok normalNameserver =>
    let issuers := caaIssuers.getD defaultCaaIssuers
    if few : 1 ≤ issuers.length ∧ issuers.length ≤ 8 then
      if normal : ∀ issuer ∈ issuers, normalizeLanHttpsDomain issuer = .ok issuer then
        .ok {
          domain := normalDomain
          nameserver := normalNameserver
          caaIssuers := issuers
          domainNormal := ⟨domain, domainNormal⟩
          nameserverNormal := ⟨nameserver, nameserverNormal⟩
          issuersFew := few
          issuersNormal := normal }
      else .error .issuers
    else .error .issuers

/-- The result of `challengeValues`: nothing when it throws or gives no array, else its values, of which those that are
no strings are nothing. -/
abbrev ChallengeValues : Type := Text → Option (List (Option Text))

/-- `/^[A-Za-z0-9_-]{43}$/`. -/
def challengeDigest (value : Text) : Bool :=
  decide (value.length = 43) && value.all fun c => c.isAlphanum || c == '_' || c == '-'

section Responder

variable (zone : LanDnsZone)

def LanDnsZone.soa : Octets :=
  rr zone.domain DnsType.SOA.number 30
    (dnsName zone.nameserver ++ dnsName ("hostmaster.".toList ++ zone.domain) ++ [1, 3600, 600, 86400, 30].flatMap u32)

/-- `managed`: `i-`, 1 to 50 letters and digits, and the suffix of the managed names. -/
def LanDnsZone.managed (name : Text) : Bool :=
  let suffix := ".instances.".toList ++ zone.domain
  let digits := (name.drop 2).take (name.length - 2 - suffix.length)
  decide ("i-".toList <+: name) && decide (suffix <:+ name.drop 2) &&
    decide (1 ≤ digits.length) && decide (digits.length ≤ 50) && digits.all fun c => c.isLower || c.isDigit

def LanDnsZone.eligibleName (name : Text) : Bool :=
  match lanHttpsAddress lowerText name zone.domain with
  | .ok _ => true
  | .error _ => zone.managed name

/-- The names that the operator may have challenges for. -/
def LanDnsZone.operatorNames : List Text := [zone.domain, "authority-control.".toList ++ zone.domain]

/-- The records of challenge values, or nothing where they are refused. -/
def challengeRecords (name : Text) (values : Option (List (Option Text))) : Option (List Octets) :=
  match values with
  | none => none
  | some values =>
    if values.length ≤ 128 ∧ values.all fun value => value.any challengeDigest then
      some ((values.filterMap id).eraseDups.map fun value =>
        rr name DnsType.TXT.number 10 (UInt8.ofNat value.length :: ascii value))
    else none

/-- The records of the zone's own name. -/
def LanDnsZone.ownRecords (type : Nat) : List Octets :=
  if type = DnsType.NS.number then [rr zone.domain DnsType.NS.number 3600 (dnsName zone.nameserver)]
  else if type = DnsType.SOA.number then [zone.soa]
  else if type = DnsType.CAA.number then
    zone.caaIssuers.flatMap fun issuer => ["issue".toList, "issuewild".toList].map fun tag =>
      rr zone.domain DnsType.CAA.number 3600 ([0, UInt8.ofNat tag.length] ++ ascii tag ++ ascii issuer)
  else []

/-- The records of an address that a name encodes. -/
def addressRecords (name : Text) (type : Nat) (address : Text) : List Octets :=
  if type = DnsType.A.number ∧ isIP address = 4 then
    [rr name type 3600 ((splitText '.' address).map fun part => UInt8.ofNat (numberText 10 part))]
  else if type = DnsType.AAAA.number ∧ isIP address = 6 then [rr name type 3600 (ipv6Bytes address)]
  else []

/-- What a reply is made of when `reply` is called. -/
structure DnsDraft where
  rcode : Nat
  authoritative : Bool
  answers : List Octets
  authorities : List Octets
deriving DecidableEq

/-- Records that were found, or the zone's start of authority. -/
def LanDnsZone.settle (answers : List Octets) : DnsDraft where
  rcode := 0
  authoritative := true
  answers := answers
  authorities := if answers = [] then [zone.soa] else []

/-- The name is not there. -/
def LanDnsZone.nameError : DnsDraft where
  rcode := 3
  authoritative := true
  answers := []
  authorities := [zone.soa]

/-- An error without records. -/
def DnsDraft.error (rcode : Nat) (authoritative : Bool) : DnsDraft where
  rcode := rcode
  authoritative := authoritative
  answers := []
  authorities := []

/-- The responder, from a query on. -/
def LanDnsZone.draft (values : ChallengeValues) (query : DnsQuery) : DnsDraft :=
  if query.qclass ≠ 1 ∨ (query.name ≠ zone.domain ∧ ¬ ('.' :: zone.domain) <:+ query.name) then .error 5 false
  else if query.type = 255 then .error 5 true
  else if query.name = zone.domain then zone.settle (zone.ownRecords query.type)
  else if "_acme-challenge.".toList <+: query.name then
    if ¬ zone.eligibleName (query.name.drop 16) ∧ query.name.drop 16 ∉ zone.operatorNames then zone.nameError
    else if query.type = DnsType.TXT.number then
      match challengeRecords query.name (values query.name) with
      | none => .error 2 true
      | some answers => zone.settle answers
    else zone.settle []
  else
    match lanHttpsAddress lowerText query.name zone.domain with
    | .ok address => zone.settle (addressRecords query.name query.type address)
    | .error _ => if zone.managed query.name then zone.settle [] else zone.nameError

/-- The loop of `reply`. -/
def acceptRecords (limit : Nat) : Nat → List Octets → List Octets
  | _, [] => []
  | length, record :: records =>
    if limit < length + record.length then [] else record :: acceptRecords limit (length + record.length) records

/-- The size limit of a transport. -/
def replyLimit (tcp : Bool) : Nat := if tcp then 16384 else 512

/-- `reply`, with the octets of the question and the flags so far. -/
def reply (tcp : Bool) (id flags : Nat) (q : Octets) (draft : DnsDraft) : Octets :=
  let records := draft.answers ++ draft.authorities
  let accepted := acceptRecords (replyLimit tcp) (12 + q.length) records
  let flags := flags ||| (if draft.authoritative then 0x0400 else 0)
  let flags := flags ||| (if accepted.length < records.length then 0x0200 else 0)
  let answerCount := min accepted.length draft.answers.length
  u16 id ++ u16 (flags ||| draft.rcode) ++ u16 (if q = [] then 0 else 1) ++ u16 answerCount ++
    u16 (accepted.length - answerCount) ++ u16 0 ++ q ++ accepted.flatten

/-- The question of a query, as it is sent back. -/
def questionSection (query : DnsQuery) : Octets := dnsName query.name ++ u16 query.type ++ u16 query.qclass

/-- The packets that are answered. -/
def Answerable (packet : Octets) : Prop :=
  12 ≤ packet.length ∧ packet.length ≤ 4096 ∧ readUInt16BE packet 2 &&& 0x8000 = 0

instance (packet : Octets) : Decidable (Answerable packet) := inferInstanceAs (Decidable (_ ∧ _))

/-- The question and the draft of the reply to a packet. -/
def LanDnsZone.plan (values : ChallengeValues) (packet : Octets) : Octets × DnsDraft :=
  if readUInt16BE packet 2 &&& 0x7800 ≠ 0 then ([], .error 4 false)
  else if readUInt16BE packet 4 ≠ 1 then ([], .error 1 false)
  else
    match question packet with
    | .error _ => ([], .error 1 false)
    | .ok query => (questionSection query, zone.draft values query)

/-- The responder of `createLanHttpsDnsResponder`. -/
def LanDnsZone.respond (values : ChallengeValues) (packet : Octets) (tcp : Bool) : Option Octets :=
  if Answerable packet then
    let plan := zone.plan values packet
    some (reply tcp (readUInt16BE packet 0) (0x8000 ||| (readUInt16BE packet 2 &&& 0x0100)) plan.1 plan.2)
  else none

end Responder

end LatexRenderer
