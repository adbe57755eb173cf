import Mathlib.Data.List.GetD
import LatexRenderer.Deploy.CertificateReading

/-! # The identifier that a certificate has

The identifier has one reading, so certificates with different serial numbers have different ones. It is the one
that the authority knows unless the serial number has a leading zero octet, which the code takes off. No byte string
makes the walk read outside it.
-/

namespace LatexRenderer

open Machine

section Identifiers

theorem base64Char_injective {first second : Nat} (small : first < 64) (other : second < 64)
    (same : base64Char first = base64Char second) : first = second := by
  have distinct : base64Alphabet.Nodup := by decide
  have length : base64Alphabet.length = 64 := by decide
  rw [base64Char, base64Char, List.getD_eq_getElem _ _ (by omega), List.getD_eq_getElem _ _ (by omega)] at same
  exact (distinct.getElem_inj_iff).mp same

theorem base64Char_mem (value : Nat) : base64Char value ∈ base64Alphabet := by
  rw [base64Char, List.getD_eq_getElem?_getD]
  cases read : base64Alphabet[value]? with
  | none => decide
  | some c => exact List.mem_of_getElem? read

theorem base64url_alphabet (octets : Octets) : ∀ c ∈ base64url octets, c ∈ base64Alphabet := by
  induction octets using base64url.induct with
  | case1 => exact fun _ never => (nomatch never)
  | case2 a =>
    simp only [base64url, List.mem_cons, List.not_mem_nil, or_false]
    rintro c (rfl | rfl) <;> exact base64Char_mem _
  | case3 a b =>
    simp only [base64url, List.mem_cons, List.not_mem_nil, or_false]
    rintro c (rfl | rfl | rfl) <;> exact base64Char_mem _
  | case4 a b c rest ih =>
    simp only [base64url, List.mem_cons]
    rintro d (rfl | rfl | rfl | rfl | later)
    case inr.inr.inr.inr => exact ih d later
    all_goals exact base64Char_mem _

theorem base64Char_octet {a b : UInt8} {c d : Nat} (high : base64Char (a.toNat / 4) = base64Char (b.toNat / 4))
    (low : base64Char (a.toNat % 4 * 16 + c) = base64Char (b.toNat % 4 * 16 + d)) (small : c < 16) (other : d < 16) :
    a = b ∧ c = d := by
  have first := a.toNat_lt
  have second := b.toNat_lt
  have upper := base64Char_injective (by omega) (by omega) high
  have lower := base64Char_injective (by omega) (by omega) low
  exact ⟨UInt8.toNat_inj.mp (by omega), by omega⟩

theorem base64url_injective {first second : Octets} (same : base64url first = base64url second) : first = second := by
  induction first using base64url.induct generalizing second with
  | case1 =>
    rcases second with _ | ⟨x, _ | ⟨y, _ | ⟨z, later⟩⟩⟩ <;> simp [base64url] at same ⊢
  | case2 a =>
    rcases second with _ | ⟨x, _ | ⟨y, _ | ⟨z, later⟩⟩⟩ <;> simp only [base64url, List.cons.injEq, reduceCtorEq,
      and_false] at same
    obtain ⟨high, low, _⟩ := same
    obtain ⟨rfl, _⟩ := base64Char_octet high low (by decide : (0 : Nat) < 16) (by decide : (0 : Nat) < 16)
    rfl
  | case3 a b =>
    rcases second with _ | ⟨x, _ | ⟨y, _ | ⟨z, later⟩⟩⟩ <;> simp only [base64url, List.cons.injEq, reduceCtorEq,
      and_false] at same
    obtain ⟨high, middle, low, _⟩ := same
    have left := b.toNat_lt
    have right := y.toNat_lt
    obtain ⟨rfl, upper⟩ := base64Char_octet high middle (by omega) (by omega)
    have lower := base64Char_injective (by omega) (by omega) low
    obtain rfl : b = y := UInt8.toNat_inj.mp (by omega)
    rfl
  | case4 a b c rest ih =>
    rcases second with _ | ⟨x, _ | ⟨y, _ | ⟨z, later⟩⟩⟩ <;> simp only [base64url, List.cons.injEq, reduceCtorEq,
      and_false] at same
    obtain ⟨high, middle, low, lowest, tail⟩ := same
    have left := b.toNat_lt
    have right := y.toNat_lt
    have former := c.toNat_lt
    have latter := z.toNat_lt
    obtain ⟨rfl, upper⟩ := base64Char_octet high middle (by omega) (by omega)
    have third := base64Char_injective (by omega) (by omega) low
    have fourth := base64Char_injective (by omega) (by omega) lowest
    obtain rfl : b = y := UInt8.toNat_inj.mp (by omega)
    obtain rfl : c = z := UInt8.toNat_inj.mp (by omega)
    rw [ih tail]

theorem certificateIdentifier_injective {key serial key' serial' : Octets}
    (same : certificateIdentifier key serial = certificateIdentifier key' serial') : key = key' ∧ serial = serial' := by
  have noDot : ∀ octets : Octets, '.' ∉ base64url octets := fun octets member =>
    absurd (base64url_alphabet octets '.' member) (by decide)
  obtain ⟨keys, _, serials⟩ := (List.append_cons_inj_of_notMem (noDot key) (noDot serial)).mp same
  exact ⟨base64url_injective keys, base64url_injective serials⟩

/-- The leading zero of a serial number is what the code takes off. -/
theorem unsignedOctets_eq_iff {serial : Octets} (positive : PositiveInteger serial) :
    unsignedOctets serial = serial ↔ serial.head? ≠ some 0 := by
  constructor
  · intro kept zero
    obtain ⟨second, rest, rfl, high⟩ := positive.shortest zero
    have nonzero : second ≠ 0 := by
      rintro rfl
      exact absurd high (by decide)
    have shorter : unsignedOctets (second :: rest) = second :: rest := by
      cases rest with
      | nil => rfl
      | cons third rest => rw [unsignedOctets, if_neg nonzero]
    rw [unsignedOctets, if_pos rfl, shorter] at kept
    have lengths := congrArg List.length kept
    simp only [List.length_cons] at lengths
    omega
  · intro nonzero
    match serial with
    | [] => rfl
    | [_] => rfl
    | first :: second :: rest =>
      have different : first ≠ 0 := fun zero => nonzero (congrArg some zero)
      rw [unsignedOctets, if_neg different]

/-- What is left of two different serial numbers is different. -/
theorem unsignedOctets_injective {first second : Octets} (positive : PositiveInteger first)
    (positive' : PositiveInteger second) (same : unsignedOctets first = unsignedOctets second) : first = second := by
  have stripped : ∀ {serial : Octets}, PositiveInteger serial → serial.head? = some 0 →
      ∃ next rest, serial = 0 :: next :: rest ∧ unsignedOctets serial = next :: rest ∧ 128 ≤ next.toNat := by
    intro serial positive zero
    obtain ⟨next, rest, rfl, high⟩ := positive.shortest zero
    have nonzero : next ≠ 0 := by
      rintro rfl
      exact absurd high (by decide)
    refine ⟨next, rest, rfl, ?_, high⟩
    rw [unsignedOctets, if_pos rfl]
    cases rest with
    | nil => rfl
    | cons third rest => rw [unsignedOctets, if_neg nonzero]
  have low : ∀ {serial : Octets} {next : UInt8} {rest : Octets}, PositiveInteger serial → serial = next :: rest →
      next.toNat < 128 := by
    rintro serial next rest positive rfl
    obtain ⟨head, same, sign⟩ := positive.sign
    cases same
    exact sign
  by_cases zero : first.head? = some 0 <;> by_cases zero' : second.head? = some 0
  · obtain ⟨next, rest, rfl, left, _⟩ := stripped positive zero
    obtain ⟨next', rest', rfl, right, _⟩ := stripped positive' zero'
    rw [left, right] at same
    rw [same]
  · obtain ⟨next, rest, _, left, high⟩ := stripped positive zero
    rw [left, (unsignedOctets_eq_iff positive').mpr zero'] at same
    exact absurd (low positive' same.symm) (by omega)
  · obtain ⟨next, rest, _, right, high⟩ := stripped positive' zero'
    rw [right, (unsignedOctets_eq_iff positive).mpr zero] at same
    exact absurd (low positive same) (by omega)
  · rwa [(unsignedOctets_eq_iff positive).mpr zero, (unsignedOctets_eq_iff positive').mpr zero'] at same

end Identifiers

section Safety

/-- The walk ends, and it reads nothing outside the buffer. -/
def Bounded {α : Type} (result : Except DerFailure α) : Prop :=
  ∀ failure, result = .error failure → ∃ message, failure = .thrown message

variable {α β σ : Type} {data : Octets}

theorem Bounded.ok (value : α) : Bounded (.ok value) := fun _ never => (nomatch never)

theorem Bounded.bind {first : Except DerFailure α} {next : α → Except DerFailure β} (bounded : Bounded first)
    (then_ : ∀ value, first = .ok value → Bounded (next value)) : Bounded (first >>= next) := by
  cases result : first with
  | ok value => exact then_ value result
  | error failure =>
    intro other same
    cases same
    exact bounded failure result

theorem Bounded.demand (condition : Prop) [Decidable condition] (message : String) :
    Bounded (demand condition (derError message)) := by
  intro failure failed
  unfold Machine.demand at failed
  split at failed
  · cases failed
  · cases failed
    exact ⟨_, rfl⟩

theorem octetAt_bounded {offset : Nat} (inside : offset < data.length) : Bounded (octetAt data offset) := by
  rw [octetAt_of (List.getElem?_eq_getElem inside)]
  exact .ok _

theorem lengthOctets_bounded {count offset : Nat} (inside : offset + count ≤ data.length) (length : Nat) :
    Bounded (lengthOctets data count offset length) := by
  induction count generalizing offset length with
  | zero => exact .ok _
  | succ count ih =>
    apply Bounded.bind (octetAt_bounded (by omega))
    intro octet _
    exact ih (by omega) _

theorem itemLength_bounded {first : UInt8} {offset stop : Nat} (inside : stop ≤ data.length) :
    Bounded (itemLength data first offset stop) := by
  unfold itemLength
  split
  · exact .ok _
  · apply Bounded.bind (.demand _ _)
    intro _ demanded
    have within := demand_eq_ok.mp demanded
    apply Bounded.bind (lengthOctets_bounded (by omega) 0)
    intro length _
    exact .ok _

theorem itemLength_ok {first : UInt8} {offset stop length start : Nat}
    (read : itemLength data first offset stop = .ok (length, start)) : offset ≤ start := by
  unfold itemLength at read
  split at read
  · cases read
    exact Nat.le_refl _
  · obtain ⟨_, read⟩ := demand_bind_eq_ok.mp read
    obtain ⟨_, _, read⟩ := bind_eq_ok.mp read
    cases read
    exact Nat.le_add_right _ _

theorem item_bounded {offset stop : Nat} (inside : stop ≤ data.length) : Bounded (item data offset stop) := by
  apply Bounded.bind (.demand _ _)
  intro _ demanded
  have room := demand_eq_ok.mp demanded
  apply Bounded.bind (octetAt_bounded (by omega))
  intro tag _
  apply Bounded.bind (octetAt_bounded (by omega))
  intro first _
  apply Bounded.bind (itemLength_bounded inside)
  rintro ⟨length, start⟩ _
  apply Bounded.bind (.demand _ _)
  intro _ _
  exact .ok _

/-- An item lies in its range and has two octets before its content. -/
theorem item_ok {offset stop : Nat} {found : DerItem} (read : item data offset stop = .ok found) :
    offset + 2 ≤ found.start ∧ found.start ≤ found.stop ∧ found.stop ≤ stop := by
  obtain ⟨_, read⟩ := demand_bind_eq_ok.mp read
  obtain ⟨_, _, read⟩ := bind_eq_ok.mp read
  obtain ⟨_, _, read⟩ := bind_eq_ok.mp read
  obtain ⟨⟨length, start⟩, lengths, read⟩ := bind_eq_ok.mp read
  obtain ⟨ends, read⟩ := demand_bind_eq_ok.mp read
  cases read
  exact ⟨itemLength_ok lengths, Nat.le_add_right _ _, ends⟩

theorem walk_bounded {visit : σ → DerItem → Except DerFailure σ} {stop : Nat} (inside : stop ≤ data.length)
    (visits : ∀ state found, found.start ≤ found.stop → found.stop ≤ stop → Bounded (visit state found))
    {fuel offset : Nat} (enough : stop - offset < fuel) (state : σ) :
    Bounded (walk data stop visit fuel offset state) := by
  induction fuel generalizing offset state with
  | zero => omega
  | succ fuel ih =>
    rw [walk]
    split
    · apply Bounded.bind (item_bounded inside)
      intro found read
      have range := item_ok read
      apply Bounded.bind (visits state found range.2.1 range.2.2)
      intro next _
      exact ih (by omega) next
    · exact .ok _

theorem forItems_bounded {visit : σ → DerItem → Except DerFailure σ} {start stop : Nat} (inside : stop ≤ data.length)
    (visits : ∀ state found, found.start ≤ found.stop → found.stop ≤ stop → Bounded (visit state found)) (state : σ) :
    Bounded (forItems data start stop visit state) := walk_bounded inside visits (Nat.lt_succ_self _) state

theorem visitExtension_bounded {extension : DerItem} (inside : extension.stop ≤ data.length) (aki : Option Octets) :
    Bounded (visitExtension data aki extension) := by
  apply Bounded.bind (item_bounded inside)
  intro oid readOid
  split
  · exact .ok _
  · have value : Bounded (extensionValue data oid extension) := by
      apply Bounded.bind (item_bounded inside)
      intro value _
      split
      · exact item_bounded inside
      · exact .ok _
    apply Bounded.bind value
    intro value readValue
    have within : value.stop ≤ extension.stop := by
      obtain ⟨first, readFirst, read⟩ := bind_eq_ok.mp readValue
      split at read
      · exact (item_ok read).2.2
      · cases read
        exact (item_ok readFirst).2.2
    apply Bounded.bind (.demand _ _)
    intro _ _
    apply Bounded.bind (item_bounded (by omega))
    intro keys readKeys
    have range := item_ok readKeys
    exact forItems_bounded (by omega) (fun _ _ _ _ => .ok _) aki

theorem visitField_bounded {field : DerItem} (inside : field.stop ≤ data.length) (aki : Option Octets) :
    Bounded (visitField data aki field) := by
  unfold visitField
  split
  · exact .ok _
  · apply Bounded.bind (item_bounded inside)
    intro sequence read
    have range := item_ok read
    exact forItems_bounded (by omega) (fun _ _ _ within => visitExtension_bounded (by omega) _) aki

/-- No byte string makes the walk read outside it, or go on for ever. -/
theorem certificateIdOf_bounded (data : Octets) : Bounded (certificateIdOf data) := by
  apply Bounded.bind (.demand _ _)
  intro _ _
  apply Bounded.bind (item_bounded (Nat.le_refl _))
  intro outer readOuter
  have rangeOuter := item_ok readOuter
  apply Bounded.bind (item_bounded rangeOuter.2.2)
  intro tbs readTbs
  have rangeTbs := item_ok readTbs
  apply Bounded.bind (.demand _ _)
  intro _ _
  have number : Bounded (serialItem data tbs) := by
    apply Bounded.bind (item_bounded (by omega))
    intro first _
    split
    · exact item_bounded (by omega)
    · exact .ok _
  apply Bounded.bind number
  intro serial readSerial
  have rangeSerial : serial.start ≤ serial.stop ∧ serial.stop ≤ tbs.stop := by
    obtain ⟨first, readFirst, read⟩ := bind_eq_ok.mp readSerial
    split at read
    · exact (item_ok read).2
    · cases read
      exact (item_ok readFirst).2
  apply Bounded.bind (.demand _ _)
  intro _ demanded
  have some := (demand_eq_ok.mp demanded).2
  apply Bounded.bind (octetAt_bounded (by omega))
  intro first _
  apply Bounded.bind (.demand _ _)
  intro _ _
  apply Bounded.bind (forItems_bounded (by omega) (fun _ _ _ within => visitField_bounded (by omega) _) none)
  intro aki _
  exact .ok _

end Safety

theorem lanHttpsAcmeCertificateId_encode (certificate : Certificate) :
    lanHttpsAcmeCertificateId (some certificate.encode) =
      if certificate.encode.length ≤ 524288 then .ok (certificate.usableKey?.map fun key =>
        certificateIdentifier key (unsignedOctets certificate.serialNumber))
      else .error (derError "Certificate is too large") := by
  have accepted : lanHttpsAcmeCertificateId (some certificate.encode) = certificateIdOf certificate.encode := by
    rw [lanHttpsAcmeCertificateId, obtain?, ok_bind]
  rw [accepted]
  split
  · next small => exact certificateIdOf_encode certificate small
  · next large =>
    rw [certificateIdOf, demand_not large]
    rfl

/-- The walk is safe for every byte string and finds the key identifier of every certificate, the identifiers of two
serial numbers differ, and the identifier is that of RFC 9773 unless the serial number has a leading zero octet or the
certificate is too large. -/
theorem lanHttpsAcmeCertificateId_iff (certificate : Certificate) :
    (∀ raw, Bounded (lanHttpsAcmeCertificateId raw)) ∧
    (lanHttpsAcmeCertificateId (some certificate.encode) = .ok none → certificate.usableKey? = none) ∧
    (∀ (second : Certificate) (identifier : Text),
      lanHttpsAcmeCertificateId (some certificate.encode) = .ok (some identifier) →
      lanHttpsAcmeCertificateId (some second.encode) = .ok (some identifier) →
      certificate.usableKey? = second.usableKey? ∧ certificate.serialNumber = second.serialNumber) ∧
    ∀ key : Octets, certificate.usableKey? = some key →
      (lanHttpsAcmeCertificateId (some certificate.encode) =
          .ok (some (certificateIdentifier key certificate.serialNumber)) ↔
        certificate.encode.length ≤ 524288 ∧ certificate.serialNumber.head? ≠ some 0) := by
  refine ⟨fun raw => ?_, fun returned => ?_, fun second identifier one other => ?_, fun key usable => ?_⟩
  · cases raw with
    | none =>
      intro failure failed
      cases failed
      exact ⟨_, rfl⟩
    | some data => exact certificateIdOf_bounded data
  · rw [lanHttpsAcmeCertificateId_encode] at returned
    split at returned
    · exact Option.map_eq_none_iff.mp (Except.ok.inj returned)
    · cases returned
  · rw [lanHttpsAcmeCertificateId_encode] at one other
    split at one
    · split at other
      · obtain ⟨key, usable, rfl⟩ := Option.map_eq_some_iff.mp (Except.ok.inj one)
        obtain ⟨key', usable', same⟩ := Option.map_eq_some_iff.mp (Except.ok.inj other)
        obtain ⟨rfl, serials⟩ := certificateIdentifier_injective same
        exact ⟨usable.trans usable'.symm, unsignedOctets_injective certificate.positive second.positive serials.symm⟩
      · cases other
    · cases one
  · rw [lanHttpsAcmeCertificateId_encode, usable, ← unsignedOctets_eq_iff certificate.positive]
    constructor
    · intro returned
      split at returned
      · next small =>
        have same := Option.some.inj (Except.ok.inj returned)
        exact ⟨small, (certificateIdentifier_injective same).2⟩
      · cases returned
    · rintro ⟨small, same⟩
      rw [if_pos small, Option.map_some, same]

/-- A certificate with an Authority Key Identifier and this serial number. -/
def sampleCertificate (serialNumber : Octets) (positive : PositiveInteger serialNumber) : Certificate where
  version := some [0x02, 0x01, 0x02]
  serialNumber := serialNumber
  positive := positive
  signature := []
  issuer := []
  validity := []
  subject := []
  subjectPublicKeyInfo := []
  issuerUniqueID := none
  subjectUniqueID := none
  extensions :=
    [.other [0x55, 0x1d, 0x13] true [0x30, 0x00] (by decide),
      .authorityKey false ⟨some [0x69, 0x88, 0x5b, 0x6b, 0x87, 0x46, 0x40, 0x41, 0xe1, 0xb3, 0x7b, 0x84, 0x7b, 0xa0,
        0xae, 0x2c, 0xde, 0x01, 0xc8, 0xd4], none, none⟩]
  once := by decide
  signatureAlgorithm := []
  signatureValue := [0x00]

theorem lanHttpsAcmeCertificateId_short :
    lanHttpsAcmeCertificateId (some (sampleCertificate [0x39] ⟨⟨0x39, rfl, by decide⟩, fun zero => absurd zero (by decide)⟩).encode) =
      .ok (some (certificateIdentifier [0x69, 0x88, 0x5b, 0x6b, 0x87, 0x46, 0x40, 0x41, 0xe1, 0xb3, 0x7b, 0x84, 0x7b,
        0xa0, 0xae, 0x2c, 0xde, 0x01, 0xc8, 0xd4] [0x39])) :=
  ((lanHttpsAcmeCertificateId_iff _).2.2.2 _ rfl).mpr ⟨by decide, by decide⟩

/-- The example of RFC 9773: the leading zero octet of the serial number is lost. -/
theorem lanHttpsAcmeCertificateId_leading_zero :
    lanHttpsAcmeCertificateId (some (sampleCertificate [0x00, 0x87, 0x65, 0x43, 0x21]
      ⟨⟨0x00, rfl, by decide⟩, fun _ => ⟨0x87, _, rfl, by decide⟩⟩).encode) =
      .ok (some "aYhba4dGQEHhs3uEe6CuLN4ByNQ.h2VDIQ".toList) ∧
    certificateIdentifier [0x69, 0x88, 0x5b, 0x6b, 0x87, 0x46, 0x40, 0x41, 0xe1, 0xb3, 0x7b, 0x84, 0x7b, 0xa0, 0xae,
        0x2c, 0xde, 0x01, 0xc8, 0xd4] [0x00, 0x87, 0x65, 0x43, 0x21] = "aYhba4dGQEHhs3uEe6CuLN4ByNQ.AIdlQyE".toList := by
  decide

end LatexRenderer
