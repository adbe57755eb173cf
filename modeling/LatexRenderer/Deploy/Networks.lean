import LatexRenderer.Deploy.LanNames

/-! # Networks, as texts and as numbers

A network that is read has a base without other bits than those of its prefix, and its mask tests this prefix. What is
private is inside one of four networks. The text of a network is read back.
-/

namespace LatexRenderer

open Machine

section Masks

variable {value : Text} {network : IngressNetwork} {ip : IngressAddress}

/-- The prefix of a network fits, the mask is that of the prefix, and the base has no other bits. -/
structure IngressNetwork.Sound (network : IngressNetwork) : Prop where
  fits : network.length ≤ network.family.bits
  small : network.value < 2 ^ network.family.bits
  mask : network.mask = prefixMask network.family.bits network.length
  exactBase : 2 ^ (network.family.bits - network.length) ∣ network.value

/-- A network that is read is sound, and written with its length. -/
theorem networkValue_eq_ok (accepted : networkValue value = .ok network) :
    network.Sound ∧ ∃ address, value = address ++ '/' :: toText 10 network.length := by
  unfold networkValue at accepted
  split at accepted
  · next address rawPrefix shape =>
    simp only [bind_eq_ok, demand_eq_ok] at accepted
    obtain ⟨-, -, ip, read, -, ⟨fits, canonical⟩, -, plain, done⟩ := accepted
    cases done
    have small := addressValue_lt read
    have mask : ((1 <<< ip.family.bits) - 1) ^^^ ((1 <<< (ip.family.bits - numberText 10 rawPrefix)) - 1) =
        prefixMask ip.family.bits (numberText 10 rawPrefix) := by
      rw [Nat.one_shiftLeft, Nat.one_shiftLeft, prefixMask]
    have whole := @joinText_splitText '/' value
    rw [shape] at whole
    rw [mask] at plain
    refine ⟨⟨fits, small, mask, (and_prefixMask_eq_self small).mp plain⟩, address, ?_⟩
    rw [canonical]
    exact whole.symm
  · cases accepted

/-- A network contains the addresses with its prefix. -/
theorem networkContains_iff (sound : network.Sound) (small : ip.value < 2 ^ ip.family.bits) :
    networkContains network ip = true ↔
      network.family = ip.family ∧ InPrefix ip.family.bits network.value network.length ip.value := by
  rw [networkContains, Bool.and_eq_true, decide_eq_true_eq, decide_eq_true_eq]
  constructor
  · rintro ⟨family, masked⟩
    have exactBase := sound.exactBase
    rw [sound.mask, family] at masked
    rw [family] at exactBase
    exact ⟨family, (and_prefixMask_eq_iff small exactBase).mp masked⟩
  · rintro ⟨family, within⟩
    have exactBase := sound.exactBase
    rw [family] at exactBase
    refine ⟨family, ?_⟩
    rw [sound.mask, family]
    exact (and_prefixMask_eq_iff small exactBase).mpr within

theorem inNetwork_iff (read : networkValue value = .ok network) (small : ip.value < 2 ^ ip.family.bits) :
    inNetwork ip value = true ↔
      network.family = ip.family ∧ InPrefix ip.family.bits network.value network.length ip.value := by
  rw [inNetwork, read]
  exact networkContains_iff (networkValue_eq_ok read).1 small

end Masks

section Private

variable {network : IngressNetwork} {ip : IngressAddress}

/-- The private ranges of a family: the base and the length of each. -/
def privateRanges : AddressFamily → List (Nat × Nat)
  | .four => [(10 * 2 ^ 24, 8), (172 * 2 ^ 24 + 16 * 2 ^ 16, 12), (192 * 2 ^ 24 + 168 * 2 ^ 16, 16)]
  | .six => [(0xfc * 2 ^ 120, 7)]

theorem inPrivateRanges_iff : InPrivateRanges ip ↔
    ∃ range ∈ privateRanges ip.family, InPrefix ip.family.bits range.1 range.2 ip.value := by
  obtain ⟨family, value⟩ := ip
  cases family <;> simp [InPrivateRanges, privateRanges, AddressFamily.bits]

/-- The private networks are read as the ranges. -/
theorem privateNetworks_read : privateNetworks.map networkValue =
    [.ok ⟨.four, 10 * 2 ^ 24, 8, prefixMask 32 8⟩, .ok ⟨.four, 172 * 2 ^ 24 + 16 * 2 ^ 16, 12, prefixMask 32 12⟩,
      .ok ⟨.four, 192 * 2 ^ 24 + 168 * 2 ^ 16, 16, prefixMask 32 16⟩, .ok ⟨.six, 0xfc * 2 ^ 120, 7, prefixMask 128 7⟩] := by
  decide +kernel

/-- One of the private networks is that of a range, and each range has one. -/
theorem any_privateNetworks (test : IngressNetwork → Prop) : (∃ value ∈ privateNetworks, ∃ parent,
      networkValue value = .ok parent ∧ test parent) ↔
    ∃ family, ∃ range ∈ privateRanges family, test ⟨family, range.1, range.2, prefixMask family.bits range.2⟩ := by
  have reads : (∃ value ∈ privateNetworks, ∃ parent, networkValue value = .ok parent ∧ test parent) ↔
      ∃ read ∈ privateNetworks.map networkValue, ∃ parent, read = .ok parent ∧ test parent := by
    constructor
    · rintro ⟨value, listed, found⟩
      exact ⟨_, List.mem_map_of_mem listed, found⟩
    · rintro ⟨_, listed, found⟩
      obtain ⟨value, there, rfl⟩ := List.mem_map.mp listed
      exact ⟨value, there, found⟩
  rw [reads, privateNetworks_read]
  constructor
  · rintro ⟨_, listed, parent, rfl, holds⟩
    simp only [List.mem_cons, List.not_mem_nil, or_false, Except.ok.injEq] at listed
    rcases listed with rfl | rfl | rfl | rfl
    · exact ⟨.four, _, List.mem_cons_self, holds⟩
    · exact ⟨.four, _, List.mem_cons_of_mem _ List.mem_cons_self, holds⟩
    · exact ⟨.four, _, List.mem_cons_of_mem _ (List.mem_cons_of_mem _ List.mem_cons_self), holds⟩
    · exact ⟨.six, _, List.mem_cons_self, holds⟩
  · rintro ⟨family, range, listed, holds⟩
    refine ⟨_, ?_, _, rfl, holds⟩
    cases family <;> simp only [privateRanges, List.mem_cons, List.not_mem_nil, or_false] at listed
    · rcases listed with rfl | rfl | rfl <;> simp [AddressFamily.bits]
    · subst listed
      simp [AddressFamily.bits]

/-- A listener is private when it is in the ranges. -/
theorem privateListener_iff (small : ip.value < 2 ^ ip.family.bits) : privateListener ip = true ↔ InPrivateRanges ip := by
  have each : privateListener ip = true ↔ ∃ value ∈ privateNetworks, ∃ parent, networkValue value = .ok parent ∧
      (parent.family = ip.family ∧ InPrefix ip.family.bits parent.value parent.length ip.value) := by
    rw [privateListener, List.any_eq_true]
    constructor
    · rintro ⟨value, listed, within⟩
      cases read : networkValue value with
      | error error =>
        rw [inNetwork, read] at within
        cases within
      | ok parent => exact ⟨value, listed, parent, read, (inNetwork_iff read small).mp within⟩
    · rintro ⟨value, listed, parent, read, within⟩
      exact ⟨value, listed, (inNetwork_iff read small).mpr within⟩
  rw [each, any_privateNetworks fun parent => parent.family = ip.family ∧
    InPrefix ip.family.bits parent.value parent.length ip.value, inPrivateRanges_iff]
  constructor
  · rintro ⟨family, range, listed, rfl, within⟩
    exact ⟨range, listed, within⟩
  · rintro ⟨range, listed, within⟩
    exact ⟨_, range, listed, rfl, within⟩

/-- A network is private when a range with no longer prefix contains its base. -/
theorem privateNetwork_iff (small : network.value < 2 ^ network.family.bits) : privateNetwork network = true ↔
    ∃ range ∈ privateRanges network.family, range.2 ≤ network.length ∧
      InPrefix network.family.bits range.1 range.2 network.value := by
  have each : privateNetwork network = true ↔ ∃ value ∈ privateNetworks, ∃ parent, networkValue value = .ok parent ∧
      (parent.length ≤ network.length ∧ parent.family = network.family ∧
        InPrefix network.family.bits parent.value parent.length network.value) := by
    rw [privateNetwork, List.any_eq_true]
    constructor
    · rintro ⟨value, listed, within⟩
      split at within
      · next parent read =>
        rw [Bool.and_eq_true, decide_eq_true_eq] at within
        have contained := @networkContains_iff parent ⟨network.family, network.value⟩ (networkValue_eq_ok read).1 small
        exact ⟨value, listed, parent, read, within.1, contained.mp within.2⟩
      · cases within
    · rintro ⟨value, listed, parent, read, shorter, within⟩
      refine ⟨value, listed, ?_⟩
      have contained := @networkContains_iff parent ⟨network.family, network.value⟩ (networkValue_eq_ok read).1 small
      rw [read]
      dsimp only
      rw [Bool.and_eq_true, decide_eq_true_eq]
      exact ⟨shorter, contained.mpr within⟩
  rw [each, any_privateNetworks fun parent => parent.length ≤ network.length ∧ parent.family = network.family ∧
    InPrefix network.family.bits parent.value parent.length network.value]
  constructor
  · rintro ⟨family, range, listed, shorter, rfl, within⟩
    exact ⟨range, listed, shorter, within⟩
  · rintro ⟨range, listed, shorter, within⟩
    exact ⟨_, range, listed, shorter, rfl, within⟩

/-- Every address of a private network is in the ranges. -/
theorem private_of_contains (sound : network.Sound) (isPrivate : privateNetwork network = true)
    (small : ip.value < 2 ^ ip.family.bits) (contains : networkContains network ip = true) : InPrivateRanges ip := by
  obtain ⟨family, within⟩ := (networkContains_iff sound small).mp contains
  obtain ⟨range, listed, shorter, outer⟩ := (privateNetwork_iff sound.small).mp isPrivate
  rw [family] at listed outer
  exact inPrivateRanges_iff.mpr ⟨range, listed, outer.trans shorter within⟩

end Private

section NetworkTexts

variable {text : Text} {family : AddressFamily} {base length : Nat} {octets : List Nat}

theorem ipv4Octet_toText : ∀ octet : Fin 256, ipv4Octet (toText 10 octet) = some octet.val := by decide +kernel

theorem digits_toText (value : Nat) : (toText 10 value).all Char.isDigit = true := by
  have each : ∀ d : Fin 10, (digitText d).isDigit = true := by decide
  unfold toText
  split
  · rfl
  · rw [List.all_reverse, List.all_map, List.all_eq_true]
    intro digit member
    exact each ⟨digit, Nat.digits_lt_base (by decide) member⟩

theorem ipv4?_joinText (four : octets.length = 4) (small : ∀ octet ∈ octets, octet < 256) :
    ipv4? (joinText '.' (octets.map (toText 10))) = some octets := by
  have split : splitText '.' (joinText '.' (octets.map (toText 10))) = octets.map (toText 10) := by
    apply splitText_joinText
    · simpa using List.ne_nil_of_length_eq_add_one four
    · intro part member there
      obtain ⟨octet, -, rfl⟩ := List.mem_map.mp member
      exact (isDigit_ne (List.all_eq_true.mp (digits_toText octet) _ there)).2.1 rfl
  have each : ∀ octets : List Nat, (∀ octet ∈ octets, octet < 256) →
      (octets.map (toText 10)).mapM ipv4Octet = some octets := by
    intro octets small
    induction octets with
    | nil => rfl
    | cons octet rest ih =>
      have first : ipv4Octet (toText 10 octet) = some octet :=
        ipv4Octet_toText ⟨octet, small octet List.mem_cons_self⟩
      rw [List.map_cons, List.mapM_cons, first, ih fun other member => small other (List.mem_cons_of_mem _ member)]
      rfl
  rw [ipv4?, split, List.length_map, four, if_pos rfl, each octets small]

theorem addressChars_ne (chars : addressChars text = true) : '%' ∉ text ∧ '/' ∉ text := by
  rw [addressChars, Bool.and_eq_true, List.all_eq_true] at chars
  exact ⟨fun there => absurd (chars.2 _ there) (by decide), fun there => absurd (chars.2 _ there) (by decide)⟩

/-- The text of a base is one of an address, which is the base. -/
theorem networkText_spec (small : base < 2 ^ family.bits) : addressChars (networkText family base) = true ∧
    addressValue (networkText family base) = .ok ⟨family, base⟩ := by
  cases family with
  | four =>
    have shape : networkText .four base = joinText '.' ((wordsOf 8 4 base).map (toText 10)) := rfl
    have four : (wordsOf 8 4 base).length = 4 := length_wordsOf base
    have octets : ∀ octet ∈ wordsOf 8 4 base, octet < 256 := fun octet member => wordsOf_lt member
    have read := ipv4?_joinText four octets
    have chars : addressChars (joinText '.' ((wordsOf 8 4 base).map (toText 10))) = true := by
      rw [addressChars, Bool.and_eq_true, decide_eq_true_eq, List.all_eq_true]
      constructor
      · intro none
        rw [none] at read
        cases read
      · intro c member
        rcases mem_joinText member with rfl | ⟨part, listed, inside⟩
        · rfl
        · obtain ⟨octet, -, rfl⟩ := List.mem_map.mp listed
          rw [hexDigit, hexLower, List.all_eq_true.mp (digits_toText octet) c inside]
          rfl
    rw [shape]
    refine ⟨chars, ?_⟩
    rw [addressValue_four (addressChars_ne chars).1 read, joinWords_wordsOf]
    exact congrArg (fun value => Except.ok (IngressAddress.mk .four value)) (Nat.mod_eq_of_lt small)
  | six =>
    have shape : networkText .six base = ipv6Hostname (wordsOf 16 8 base) := rfl
    have eight : (wordsOf 16 8 base).length = 8 := length_wordsOf base
    have words : SmallWords (wordsOf 16 8 base) := fun word member => wordsOf_lt member
    have read := ipv6?_ipv6Hostname eight words
    have chars : addressChars (ipv6Hostname (wordsOf 16 8 base)) = true := by
      rw [addressChars, Bool.and_eq_true, decide_eq_true_eq, List.all_eq_true]
      constructor
      · intro none
        rw [none] at read
        cases read
      · intro c member
        by_contra other
        rw [Bool.or_eq_true, Bool.or_eq_true, hexDigit, Bool.or_eq_true, beq_iff_eq] at other
        push Not at other
        exact not_mem_ipv6Hostname other.1.2 (Bool.eq_false_iff.mpr other.1.1.1) _ member
    rw [shape]
    refine ⟨chars, ?_⟩
    rw [addressValue_six (addressChars_ne chars).1 (ipv4?_of_not_mem (not_mem_ipv6Hostname (by decide) rfl _)) read,
      joinWords_wordsOf]
    exact congrArg (fun value => Except.ok (IngressAddress.mk .six value)) (Nat.mod_eq_of_lt small)

theorem networkValue_text (small : base < 2 ^ family.bits) (fits : length ≤ family.bits)
    (exactBase : 2 ^ (family.bits - length) ∣ base) :
    networkValue (networkText family base ++ '/' :: toText 10 length) =
      .ok ⟨family, base, length, prefixMask family.bits length⟩ := by
  obtain ⟨chars, read⟩ := networkText_spec small
  have slashless : '/' ∉ toText 10 length := fun there =>
    absurd (List.all_eq_true.mp (digits_toText length) _ there) (by decide)
  have split : splitText '/' (networkText family base ++ '/' :: toText 10 length) =
      [networkText family base, toText 10 length] := by
    rw [splitText_cons_part (addressChars_ne chars).2, splitText_of_not_mem slashless]
  have value : numberText 10 (toText 10 length) = length := by
    rw [numberText_eq, textValue_toText (by decide) (by decide)]
  have mask : ((1 <<< family.bits) - 1) ^^^ ((1 <<< (family.bits - length)) - 1) = prefixMask family.bits length := by
    rw [Nat.one_shiftLeft, Nat.one_shiftLeft, prefixMask]
  rw [networkValue, split]
  dsimp only
  rw [demand_of ⟨chars, toText_ne_nil length, digits_toText length⟩, read, ok_bind, ok_bind]
  dsimp only
  rw [value, demand_of ⟨fits, rfl⟩, ok_bind, mask, demand_of ((and_prefixMask_eq_self small).mpr exactBase)]
  rfl

end NetworkTexts

end LatexRenderer
