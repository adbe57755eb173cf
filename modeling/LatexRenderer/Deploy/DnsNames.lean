import LatexRenderer.Machine.DnsMessage
import LatexRenderer.Model.Deploy.DnsResponder
import LatexRenderer.Model.Texts

/-! # Names in DNS messages

The texts of names and their labels as octets. A question that is read stands in the packet, label after label, and the
text of its name is its labels in lower case.
-/

namespace LatexRenderer

open Machine

section Letters

/-- What holds of all ASCII characters, which can be tried. -/
theorem ascii_forall {P : Char → Bool} (all : ∀ n : Fin 128, P (Char.ofNat n) = true) {c : Char} (small : c.toNat < 128) :
    P c = true := by
  have one := all ⟨c.toNat, small⟩
  rwa [Char.ofNat_toNat] at one

/-- The lower-case letter of an octet. -/
def lowerOctet (octet : UInt8) : UInt8 := if 0x41 ≤ octet.toNat ∧ octet.toNat ≤ 0x5a then octet + 32 else octet

theorem lowerOctet_eq_iff {octet : UInt8} : lowerOctet octet = octet ↔ ¬ (0x41 ≤ octet.toNat ∧ octet.toNat ≤ 0x5a) := by
  unfold lowerOctet
  split
  · next capital =>
    refine ⟨fun same => ?_, fun small => absurd capital small⟩
    have equal := congrArg UInt8.toNat same
    rw [UInt8.toNat_add] at equal
    have bound := octet.toNat_lt
    have shift : (32 : UInt8).toNat = 32 := rfl
    omega
  · next small => exact ⟨fun _ => small, fun _ => rfl⟩

theorem ascii_queryLabel {octets : Octets} (chars : (queryLabel octets).all queryLabelChar = true) :
    ascii (queryLabel octets) = octets.map lowerOctet := by
  have each : ∀ n : Fin 256, queryLabelChar (Char.ofNat n).toLower = true →
      UInt8.ofNat (Char.ofNat n).toLower.toNat = lowerOctet (UInt8.ofNat n) := by decide +kernel
  rw [ascii, queryLabel, lowerText, List.map_map, List.map_map]
  refine List.map_congr_left fun octet member => ?_
  have here := each ⟨octet.toNat, octet.toNat_lt⟩ (List.all_eq_true.mp chars _
    (List.mem_map_of_mem (List.mem_map_of_mem member)))
  simpa using here

end Letters

section Labels

variable {name : Text}

/-- The labels of a name. -/
def labelsOf (name : Text) : DnsName := (splitText '.' name).map ascii

theorem dnsName_eq (name : Text) : dnsName name = nameOctets (labelsOf name) := by
  rw [dnsName, nameOctets, labelsOf, List.flatMap_map]
  congr 1
  refine List.flatMap_congr fun label _ => ?_
  rw [ascii, List.length_map]

theorem length_nameOctets (name : DnsName) : (nameOctets name).length = (name.map fun label => label.length + 1).sum + 1 := by
  induction name with
  | nil => rfl
  | cons label name ih =>
    rw [nameOctets_cons, List.length_cons, List.length_append, ih, List.map_cons, List.sum_cons]
    omega

theorem length_dnsName (name : Text) : (dnsName name).length = name.length + 2 := by
  rw [dnsName_eq, length_nameOctets, labelsOf, List.map_map]
  have whole := length_splitText '.' name
  have same : (splitText '.' name).map ((fun label : Octets => label.length + 1) ∘ ascii) =
      (splitText '.' name).map fun part => part.length + 1 := by
    refine List.map_congr_left fun part _ => ?_
    simp [ascii]
  rw [same, whole]

/-- Labels of 1 to 63 characters in a name of at most 253. -/
structure NamedWell (name : Text) : Prop where
  labels : ∀ label ∈ splitText '.' name, 1 ≤ label.length ∧ label.length ≤ 63
  short : name.length ≤ 253

theorem NamedWell.well (named : NamedWell name) : (labelsOf name).Well where
  labels label member := by
    obtain ⟨text, there, rfl⟩ := List.mem_map.mp member
    rw [ascii, List.length_map]
    exact named.labels text there
  short := by
    rw [← dnsName_eq, length_dnsName]
    have short := named.short
    omega

theorem NamedWell.cons {label : Text} (named : NamedWell name) (absent : '.' ∉ label)
    (length : 1 ≤ label.length ∧ label.length ≤ 63) (short : label.length + name.length < 253) :
    NamedWell (label ++ '.' :: name) where
  labels := by
    rw [splitText_cons_part absent]
    intro other member
    rcases List.mem_cons.mp member with rfl | old
    · exact length
    · exact named.labels other old
  short := by
    rw [List.length_append, List.length_cons]
    omega

theorem labelsOf_append {label : Text} (absent : '.' ∉ label) :
    labelsOf (label ++ '.' :: name) = ascii label :: labelsOf name := by
  rw [labelsOf, splitText_cons_part absent]
  rfl

/-- The suffix of a name is the end of its labels. -/
theorem labelsOf_suffix (front : Text) : labelsOf name <:+ labelsOf (front ++ '.' :: name) := by
  rw [labelsOf, labelsOf, splitText_append, List.map_append]
  exact List.suffix_append _ _

end Labels

section Questions

variable {packet : Octets}

/-- Labels that are read stand in the packet, and the offset is after them. -/
theorem questionLabels_ok {turns offset bytes after : Nat} {labels all : List Text}
    (read : questionLabels packet turns offset bytes labels = .ok (all, after)) (few : bytes ≤ 254) :
    ∃ name : DnsName, all = labels ++ name.map queryLabel ∧ StandsAt packet offset (nameOctets name) ∧
      after = offset + (nameOctets name).length ∧
      (∀ label ∈ name, (1 ≤ label.length ∧ label.length ≤ 63) ∧ (queryLabel label).all queryLabelChar = true) ∧
      bytes + (nameOctets name).length ≤ 255 := by
  induction turns generalizing offset bytes labels with
  | zero => cases read
  | succ turns ih =>
    rw [questionLabels] at read
    split at read
    · cases read
    · next length found =>
      split at read
      · next zero =>
        cases read
        subst zero
        refine ⟨[], (List.append_nil _).symm, ?_, rfl, fun label member => (by cases member), ?_⟩
        · exact standsAt_cons.mpr ⟨found, List.nil_prefix⟩
        · rw [nameOctets_nil, List.length_singleton]
          omega
      · split at read
        · cases read
        · next inside =>
          obtain ⟨small, within⟩ := not_or.mp inside
          dsimp only at read
          split at read
          · cases read
          · next accepted =>
            split at read
            · cases read
            · next short =>
              obtain ⟨name, rfl, stands, rfl, each, bound⟩ := ih read (by omega)
              obtain ⟨some, chars⟩ := not_or.mp accepted
              have size : (slice packet (offset + 1) (offset + 1 + length.toNat)).length = length.toNat := by
                rw [length_slice _ (by omega)]
                omega
              have positive : length.toNat ≠ 0 := fun none => some (by
                rw [queryLabel, lowerText, List.map_eq_nil_iff, List.map_eq_nil_iff, ← List.length_eq_zero_iff, size, none])
              have octets : nameOctets (slice packet (offset + 1) (offset + 1 + length.toNat) :: name) =
                  length :: (slice packet (offset + 1) (offset + 1 + length.toNat) ++ nameOctets name) := by
                rw [nameOctets_cons, size, UInt8.ofNat_toNat]
              refine ⟨slice packet (offset + 1) (offset + 1 + length.toNat) :: name, ?_, ?_, ?_, ?_, ?_⟩
              · rw [List.map_cons, List.append_assoc, List.singleton_append]
              · rw [octets]
                exact standsAt_cons.mpr ⟨found, standsAt_append.mpr ⟨standsAt_slice _ _ _, by rwa [size]⟩⟩
              · rw [octets, List.length_cons, List.length_append, size]
                omega
              · intro label member
                rcases List.mem_cons.mp member with rfl | later
                · exact ⟨⟨by omega, by omega⟩, by simpa using chars⟩
                · exact each label later
              · rw [octets, List.length_cons, List.length_append, size]
                omega

/-- A question that is read stands behind the header, and its name is the labels in lower case. -/
theorem question_ok {query : DnsQuery} (read : question packet = .ok query) :
    ∃ name : DnsName, name ≠ [] ∧ name.Well ∧ (∀ label ∈ name, (queryLabel label).all queryLabelChar = true) ∧
      query.name = joinText '.' (name.map queryLabel) ∧
      StandsAt packet 12 (questionOctets { name, type := query.type, qclass := query.qclass }) ∧
      query.type < 65536 ∧ query.qclass < 65536 := by
  unfold question at read
  obtain ⟨⟨labels, after⟩, walked, read⟩ := bind_eq_ok.mp read
  obtain ⟨⟨some, within⟩, read⟩ := demand_bind_eq_ok.mp read
  cases read
  obtain ⟨name, rfl, stands, rfl, each, short⟩ := questionLabels_ok walked (by decide)
  rw [List.nil_append] at some ⊢
  have number : ∀ offset, offset + 2 ≤ packet.length →
      beOctets 2 (readUInt16BE packet offset) = slice packet offset (offset + 2) ∧ readUInt16BE packet offset < 65536 := by
    intro offset inside
    have length := length_slice offset inside
    have size : (slice packet offset (offset + 2)).length = 2 := by omega
    have back := beOctets_bigEndian (slice packet offset (offset + 2))
    have bound := bigEndian_lt (slice packet offset (offset + 2))
    rw [size] at back bound
    exact ⟨back, bound⟩
  obtain ⟨type, typeSmall⟩ := number (12 + (nameOctets name).length) (by omega)
  obtain ⟨qclass, classSmall⟩ := number (12 + (nameOctets name).length + 2) (by omega)
  refine ⟨name, fun none => some (by rw [none]; rfl), ⟨fun label member => (each label member).1, by omega⟩,
    fun label member => (each label member).2, rfl, ?_, typeSmall, classSmall⟩
  rw [questionOctets, type, qclass, List.append_assoc]
  refine standsAt_append.mpr ⟨stands, standsAt_append.mpr ⟨standsAt_slice _ _ _, ?_⟩⟩
  rw [length_slice _ (by omega), Nat.add_sub_cancel_left]
  exact standsAt_slice _ _ _

end Questions

end LatexRenderer
