import LatexRenderer.Deploy.DnsAddresses

/-! # The records of the DNS responder

Every record of a draft is one that can be written. Answers have the queried name and type, belong to the zone, and
carry the address that the name encodes.
-/

namespace LatexRenderer

open Machine

section Lower

theorem toLower_of_large {c : Char} (large : ¬ c.toNat < 128) : c.toLower = c := by
  delta Char.toLower
  split
  · next upper =>
    have bound : c.toNat ≤ 90 := UInt32.le_iff_toNat_le.mp upper.2
    omega
  · rfl

theorem toLower_eq_dot (c : Char) : c.toLower = '.' ↔ c = '.' := by
  by_cases small : c.toNat < 128
  · have each := ascii_forall (P := fun c => decide (c.toLower = '.' ↔ c = '.')) (by decide) small
    exact of_decide_eq_true each
  · rw [toLower_of_large small]

theorem toLower_toLower (c : Char) : c.toLower.toLower = c.toLower := by
  by_cases small : c.toNat < 128
  · have each := ascii_forall (P := fun c => decide (c.toLower.toLower = c.toLower)) (by decide) small
    exact of_decide_eq_true each
  · rw [toLower_of_large small, toLower_of_large small]

theorem lowerText_lowerText (text : Text) : lowerText (lowerText text) = lowerText text := by
  rw [lowerText, lowerText, List.map_map]
  exact List.map_congr_left fun c _ => toLower_toLower c

theorem lowerText_joinText (parts : List Text) : lowerText (joinText '.' parts) = joinText '.' (parts.map lowerText) := by
  induction parts with
  | nil => rfl
  | cons part rest ih =>
    cases rest with
    | nil => rfl
    | cons second rest =>
      rw [joinText, lowerText, List.map_append, List.map_cons]
      · exact congrArg (fun tail => lowerText part ++ '.' :: tail) ih
      · exact List.cons_ne_nil _ _

end Lower

section Names

variable {value domain : Text}

/-- A normal domain is in lower case, and short enough for other labels. -/
theorem normal_spec (normal : normalizeLanHttpsDomain value = .ok domain) :
    lowerText domain = domain ∧ domain.length ≤ 213 ∧ NamedWell domain := by
  unfold normalizeLanHttpsDomain at normal
  split at normal
  · next accepted =>
    obtain ⟨short, -, -, labels, -⟩ := accepted
    cases normal
    have length : (value.map Char.toLower).length ≤ 213 := by rwa [List.length_map]
    refine ⟨lowerText_lowerText value, length, fun label member => ?_, by omega⟩
    rw [splitText_map toLower_eq_dot] at member
    obtain ⟨part, there, rfl⟩ := List.mem_map.mp member
    have accepted := List.all_eq_true.mp labels part there
    simp only [dnsLabel, Bool.and_eq_true, decide_eq_true_eq] at accepted
    rw [List.length_map]
    exact ⟨List.length_pos_iff.mpr accepted.1.1.1.1, accepted.1.1.1.2⟩
  · cases normal

theorem normal_again {again : Text} (normal : normalizeLanHttpsDomain value = .ok domain)
    (twice : normalizeLanHttpsDomain domain = .ok again) : again = domain := by
  have lower := (normal_spec normal).1
  unfold normalizeLanHttpsDomain at twice
  split at twice
  · cases twice
    exact lower
  · cases twice

/-- The text of a question's name has its labels, in lower case. -/
theorem labelsOf_query {name : DnsName} (some : name ≠ []) (well : name.Well)
    (chars : ∀ label ∈ name, (queryLabel label).all queryLabelChar = true) :
    labelsOf (joinText '.' (name.map queryLabel)) = name.map (·.map lowerOctet) ∧
      NamedWell (joinText '.' (name.map queryLabel)) ∧
      lowerText (joinText '.' (name.map queryLabel)) = joinText '.' (name.map queryLabel) := by
  have split : splitText '.' (joinText '.' (name.map queryLabel)) = name.map queryLabel := by
    refine splitText_joinText '.' (by simpa using some) fun part member there => ?_
    obtain ⟨label, listed, rfl⟩ := List.mem_map.mp member
    exact absurd (List.all_eq_true.mp (chars label listed) _ there) (by decide)
  have labels : labelsOf (joinText '.' (name.map queryLabel)) = name.map (·.map lowerOctet) := by
    rw [labelsOf, split, List.map_map]
    exact List.map_congr_left fun label member => ascii_queryLabel (chars label member)
  have lengths : ∀ label : Octets, (queryLabel label).length = label.length := fun label => by
    rw [queryLabel, lowerText, List.length_map, List.length_map]
  refine ⟨labels, ⟨fun part member => ?_, ?_⟩, ?_⟩
  · rw [split] at member
    obtain ⟨label, listed, rfl⟩ := List.mem_map.mp member
    rw [lengths]
    exact well.labels label listed
  · have whole := length_dnsName (joinText '.' (name.map queryLabel))
    have short := well.short
    rw [dnsName_eq, labels, length_nameOctets, List.map_map] at whole
    rw [length_nameOctets] at short
    have same : (name.map ((fun label : Octets => label.length + 1) ∘ fun label => label.map lowerOctet)) =
        name.map fun label => label.length + 1 := List.map_congr_left fun label _ => by simp
    rw [same] at whole
    omega
  · rw [lowerText_joinText, List.map_map]
    congr 1
    exact List.map_congr_left fun label _ => lowerText_lowerText _

end Names

section Records

variable {zone : LanDnsZone} {query : DnsQuery} {name : Text} {type ttl : Nat} {data : Octets}

theorem rr_eq (name : Text) (type ttl : Nat) (data : Octets) :
    rr name type ttl data = recordOctets { name := labelsOf name, type, qclass := 1, ttl, data } := by
  rw [rr, dnsName_eq]
  rfl

/-- The octets are a record that can be written. -/
def Written (octets : Octets) : Prop := ∃ record : DnsRecord, octets = recordOctets record ∧ record.Well

theorem written_rr (named : NamedWell name) (known : type < 65536) (lives : ttl < 4294967296) (fits : data.length < 65536) :
    Written (rr name type ttl data) :=
  ⟨_, rr_eq name type ttl data, named.well, known, show 1 < 65536 by decide, lives, fits⟩

/-- An answer to a query: of its name and type and in the zone, and with the address where it has one. -/
structure AnswerSound (zone : LanDnsZone) (query : DnsQuery) (record : DnsRecord) : Prop where
  well : record.Well
  name : record.name = labelsOf query.name
  type : record.type = query.type
  qclass : record.qclass = 1
  inZone : labelsOf zone.domain <:+ record.name
  address : record.type = DnsType.A.number ∨ record.type = DnsType.AAAA.number →
    ∃ label, query.name = label ++ '.' :: zone.domain ∧ '.' ∉ label ∧ record.data = encodedAddress label ∧
      (record.type = DnsType.A.number → ipv4Label label = true) ∧
      (record.type = DnsType.AAAA.number → ipv6Label label = true)

/-- The octets are an answer to the query. -/
def Answers (zone : LanDnsZone) (query : DnsQuery) (octets : Octets) : Prop :=
  ∃ record : DnsRecord, octets = recordOctets record ∧ AnswerSound zone query record

/-- A query that was read, of a name in the zone. -/
structure QuerySound (zone : LanDnsZone) (query : DnsQuery) : Prop where
  named : NamedWell query.name
  lower : lowerText query.name = query.name
  type : query.type < 65536
  inZone : labelsOf zone.domain <:+ labelsOf query.name

theorem LanDnsZone.named (zone : LanDnsZone) : lowerText zone.domain = zone.domain ∧ zone.domain.length ≤ 213 ∧
    NamedWell zone.domain :=
  zone.domainNormal.elim fun _ normal => normal_spec normal

/-- A record of the queried name and type that is no address answers the query. -/
theorem answers_rr (sound : QuerySound zone query) (asked : query.type = type)
    (other : type ≠ DnsType.A.number ∧ type ≠ DnsType.AAAA.number) (lives : ttl < 4294967296) (fits : data.length < 65536) :
    Answers zone query (rr query.name type ttl data) := by
  refine ⟨_, rr_eq query.name type ttl data, ⟨sound.named.well, asked ▸ sound.type, show 1 < 65536 by decide, lives, fits⟩, rfl,
    asked.symm, rfl, sound.inZone, fun address => ?_⟩
  rcases address with same | same
  · exact absurd same other.1
  · exact absurd same other.2

theorem length_hostmaster : "hostmaster.".toList.length = 11 := rfl

theorem fits_soa (zone : LanDnsZone) : (dnsName zone.nameserver ++ dnsName ("hostmaster.".toList ++ zone.domain) ++
    [1, 3600, 600, 86400, 30].flatMap u32).length < 65536 := by
  obtain ⟨-, short, -⟩ := zone.named
  obtain ⟨-, shortServer, -⟩ := zone.nameserverNormal.elim fun _ normal => normal_spec normal
  have numbers : ([1, 3600, 600, 86400, 30].flatMap u32).length = 20 := rfl
  rw [List.length_append, List.length_append, length_dnsName, length_dnsName, List.length_append, length_hostmaster,
    numbers]
  omega

theorem written_soa (zone : LanDnsZone) : Written zone.soa :=
  written_rr zone.named.2.2 (by decide) (by decide) (fits_soa zone)

/-- The zone's own records answer a query for its name. -/
theorem answers_ownRecords (sound : QuerySound zone query) (own : query.name = zone.domain) {octets : Octets}
    (member : octets ∈ zone.ownRecords query.type) : Answers zone query octets := by
  unfold LanDnsZone.ownRecords at member
  split at member
  · next asked =>
    obtain rfl := List.mem_singleton.mp member
    obtain ⟨-, shortServer, -⟩ := zone.nameserverNormal.elim fun _ normal => normal_spec normal
    rw [← own]
    exact answers_rr sound asked (by decide) (by decide) (by rw [length_dnsName]; omega)
  · split at member
    · next asked =>
      obtain rfl := List.mem_singleton.mp member
      rw [LanDnsZone.soa]
      have fits := fits_soa zone
      rw [← own] at fits ⊢
      exact answers_rr sound asked (by decide) (by decide) fits
    · split at member
      · next asked =>
        obtain ⟨issuer, listed, there⟩ := List.mem_flatMap.mp member
        obtain ⟨tag, tagged, rfl⟩ := List.mem_map.mp there
        obtain ⟨-, short, -⟩ := normal_spec (zone.issuersNormal issuer listed)
        have brief : tag.length ≤ 9 := by
          rcases List.mem_pair.mp tagged with rfl | rfl <;> decide
        rw [← own]
        refine answers_rr sound asked (by decide) (by decide) ?_
        simp only [List.length_append, ascii, List.length_map, List.length_cons, List.length_nil]
        omega
      · cases member

theorem answers_challengeRecords (sound : QuerySound zone query) (asked : query.type = DnsType.TXT.number)
    {values : Option (List (Option Text))} {records : List Octets}
    (found : challengeRecords query.name values = some records) {octets : Octets} (member : octets ∈ records) :
    Answers zone query octets := by
  unfold challengeRecords at found
  split at found
  · cases found
  · next values =>
    split at found
    · next accepted =>
      cases found
      obtain ⟨value, listed, rfl⟩ := List.mem_map.mp member
      obtain ⟨text, there, same⟩ := List.mem_filterMap.mp (List.mem_eraseDups.mp listed)
      obtain rfl : text = some value := same
      have digest := List.all_eq_true.mp accepted.2 _ there
      rw [Option.any_some, challengeDigest, Bool.and_eq_true, decide_eq_true_eq] at digest
      refine answers_rr sound asked (by decide) (by decide) ?_
      rw [List.length_cons, ascii, List.length_map, digest.1]
      decide
    · cases found

theorem length_encodedAddress {label : Text} (shape : ipv4Label label = true ∨ ipv6Label label = true) :
    (encodedAddress label).length ≤ 16 := by
  unfold encodedAddress
  split
  · next four =>
    rw [List.length_map, (ipv4Label_parts four).1]
    decide
  · next other =>
    have six := shape.resolve_left other
    have each : (fun part => (u16 (numberText 16 part)).length) = fun _ : Text => 2 := by
      funext part
      exact length_beOctets 2 _
    rw [List.length_flatMap, each, List.map_const', (ipv6Label_parts six).1]
    decide

/-- The address that a name encodes answers an address query. -/
theorem answers_addressRecords (sound : QuerySound zone query) {address : Text}
    (accepted : lanHttpsAddress lowerText query.name zone.domain = .ok address) {octets : Octets}
    (member : octets ∈ addressRecords query.name query.type address) : Answers zone query octets := by
  obtain ⟨normalized, label, same, whole, shape, kind⟩ := lanHttpsAddress_octets accepted
  obtain rfl : normalized = zone.domain := zone.domainNormal.elim fun _ normal => normal_again normal same
  rw [sound.lower] at whole
  have dotFree := not_mem_addressLabel shape
  have short := length_encodedAddress shape
  have answers : ∀ {data : Octets}, data = encodedAddress label →
      (query.type = DnsType.A.number → ipv4Label label = true) →
      (query.type = DnsType.AAAA.number → ipv6Label label = true) →
      Answers zone query (rr query.name query.type 3600 data) := by
    rintro data rfl four six
    refine ⟨_, rr_eq query.name query.type 3600 _, ⟨sound.named.well, sound.type, show 1 < 65536 by decide,
      show 3600 < 4294967296 by decide, show (encodedAddress label).length < 65536 by omega⟩, rfl, rfl, rfl, sound.inZone,
      fun _ => ⟨label, whole, dotFree, rfl, four, six⟩⟩
  unfold addressRecords at member
  split at member
  · next asked =>
    obtain rfl := List.mem_singleton.mp member
    rcases kind with ⟨_, four, data⟩ | ⟨other, _⟩
    · exact answers data (fun _ => four) fun never => absurd (asked.1.symm.trans never) (by decide)
    · exact absurd (asked.2.symm.trans other) (by decide)
  · split at member
    · next asked =>
      obtain rfl := List.mem_singleton.mp member
      rcases kind with ⟨other, _⟩ | ⟨_, six, data⟩
      · exact absurd (asked.2.symm.trans other) (by decide)
      · exact answers data (fun never => absurd (asked.1.symm.trans never) (by decide)) fun _ => six
    · cases member

/-- The answers of a draft answer the query, and its other records can be written. -/
theorem draft_sound (zone : LanDnsZone) (values : ChallengeValues) (named : NamedWell query.name) (lower : lowerText query.name = query.name)
    (known : query.type < 65536) :
    (∀ octets ∈ (zone.draft values query).answers, Answers zone query octets) ∧
      (∀ octets ∈ (zone.draft values query).authorities, Written octets) ∧ (zone.draft values query).rcode < 8 := by
  have error : ∀ rcode authoritative, rcode < 8 → (∀ octets ∈ (DnsDraft.error rcode authoritative).answers,
      Answers zone query octets) ∧ (∀ octets ∈ (DnsDraft.error rcode authoritative).authorities, Written octets) ∧
      (DnsDraft.error rcode authoritative).rcode < 8 := fun rcode authoritative small =>
    ⟨fun octets member => (by cases member), fun octets member => (by cases member), small⟩
  have missing : (∀ octets ∈ zone.nameError.answers, Answers zone query octets) ∧
      (∀ octets ∈ zone.nameError.authorities, Written octets) ∧ zone.nameError.rcode < 8 :=
    ⟨fun octets member => (by cases member), fun octets member => List.mem_singleton.mp member ▸ written_soa zone,
      show 3 < 8 by decide⟩
  have settled : ∀ {answers : List Octets}, (∀ octets ∈ answers, Answers zone query octets) →
      (∀ octets ∈ (zone.settle answers).answers, Answers zone query octets) ∧
      (∀ octets ∈ (zone.settle answers).authorities, Written octets) ∧ (zone.settle answers).rcode < 8 := by
    intro answers each
    refine ⟨each, fun octets member => ?_, show 0 < 8 by decide⟩
    unfold LanDnsZone.settle at member
    dsimp only at member
    split at member
    · exact List.mem_singleton.mp member ▸ written_soa zone
    · cases member
  unfold LanDnsZone.draft
  split
  · exact error 5 false (by decide)
  · next inside =>
    have inZone : labelsOf zone.domain <:+ labelsOf query.name := by
      by_cases own : query.name = zone.domain
      · rw [own]
      · have suffix : ('.' :: zone.domain) <:+ query.name := by
          by_contra outside
          exact inside (.inr ⟨own, outside⟩)
        obtain ⟨front, whole⟩ := suffix
        rw [← whole]
        exact labelsOf_suffix front
    have sound : QuerySound zone query := ⟨named, lower, known, inZone⟩
    split
    · exact error 5 true (by decide)
    · split
      · next own => exact settled fun octets member => answers_ownRecords sound own member
      · split
        · split
          · exact missing
          · split
            · next asked =>
              split
              · exact error 2 true (by decide)
              · next found => exact settled fun octets member => answers_challengeRecords sound asked found member
            · exact settled fun octets member => (by cases member)
        · split
          · next accepted => exact settled fun octets member => answers_addressRecords sound accepted member
          · split
            · exact settled fun octets member => (by cases member)
            · exact missing

end Records

end LatexRenderer
