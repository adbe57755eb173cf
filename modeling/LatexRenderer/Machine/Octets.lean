import Mathlib.Data.Nat.Digits.Lemmas

/-! # Octets at offsets

Readers of binary formats follow offsets into one buffer. `StandsAt` says that octets stand at an offset, so that
what is read there is known, and numbers of several octets are read most significant octet first.
-/

namespace Machine

/-- A buffer. -/
abbrev Octets : Type := List UInt8

/-- The octets from one offset up to another. -/
def slice (data : Octets) (start stop : Nat) : Octets := (data.drop start).take (stop - start)

/-- The octets stand in the buffer at the offset. -/
def StandsAt (data : Octets) (offset : Nat) (part : Octets) : Prop := part <+: data.drop offset

section StandsAt

variable {data first second part : Octets} {offset : Nat} {octet : UInt8}

theorem standsAt_self (data : Octets) : StandsAt data 0 data := List.prefix_refl data

theorem standsAt_append :
    StandsAt data offset (first ++ second) ↔ StandsAt data offset first ∧ StandsAt data (offset + first.length) second := by
  unfold StandsAt
  rw [← List.drop_drop]
  constructor
  · rintro ⟨rest, whole⟩
    rw [← whole, List.append_assoc]
    exact ⟨List.prefix_append _ _, by simp⟩
  · rintro ⟨⟨rest, whole⟩, later⟩
    rw [← whole] at later ⊢
    simpa using later

theorem standsAt_cons :
    StandsAt data offset (octet :: part) ↔ data[offset]? = some octet ∧ StandsAt data (offset + 1) part := by
  have single : StandsAt data offset [octet] ↔ data[offset]? = some octet := by
    unfold StandsAt
    constructor
    · rintro ⟨rest, whole⟩
      rw [← List.head?_drop, ← whole]
      rfl
    · intro read
      rw [← List.head?_drop] at read
      obtain ⟨rest, whole⟩ := List.head?_eq_some_iff.mp read
      exact ⟨rest, whole.symm⟩
  rw [← single]
  exact (standsAt_append : StandsAt data offset ([octet] ++ part) ↔ _)

theorem StandsAt.slice_eq (stands : StandsAt data offset part) :
    slice data offset (offset + part.length) = part := by
  obtain ⟨rest, whole⟩ := stands
  rw [slice, ← whole, Nat.add_sub_cancel_left, List.take_left']
  rfl

theorem length_slice (start : Nat) {stop : Nat} (within : stop ≤ data.length) : (slice data start stop).length = stop - start := by
  rw [slice, List.length_take, List.length_drop]
  omega

/-- A slice stands where it was taken. -/
theorem standsAt_slice (data : Octets) (start stop : Nat) : StandsAt data start (slice data start stop) :=
  List.take_prefix _ _

/-- Octets that stand in the buffer end in it. -/
theorem StandsAt.bound (stands : StandsAt data offset part) (some : part ≠ []) :
    offset + part.length ≤ data.length := by
  have short := stands.length_le
  have positive := List.length_pos_iff.mpr some
  rw [List.length_drop] at short
  omega

end StandsAt

/-- The number that octets stand for, the most significant one first. -/
def bigEndian (octets : Octets) : Nat := octets.foldl (fun value octet => value * 256 + octet.toNat) 0

/-- The number that octets stand for, the least significant one first. -/
def littleEndian (octets : Octets) : Nat := bigEndian octets.reverse

/-- The shortest octets that stand for a number. -/
def octetsOf (value : Nat) : Octets := ((Nat.digits 256 value).map UInt8.ofNat).reverse

theorem foldl_octets (octets : Octets) (value : Nat) :
    octets.foldl (fun value octet => value * 256 + octet.toNat) value =
      value * 256 ^ octets.length + bigEndian octets := by
  induction octets generalizing value with
  | nil => simp [bigEndian]
  | cons octet rest ih =>
    simp only [bigEndian, List.foldl_cons, List.length_cons] at ih ⊢
    rw [ih, ih (0 * 256 + octet.toNat), Nat.pow_succ]
    ring

theorem bigEndian_cons (octet : UInt8) (rest : Octets) :
    bigEndian (octet :: rest) = octet.toNat * 256 ^ rest.length + bigEndian rest := by
  rw [bigEndian, List.foldl_cons, foldl_octets]
  simp

theorem bigEndian_append (first second : Octets) :
    bigEndian (first ++ second) = bigEndian first * 256 ^ second.length + bigEndian second := by
  rw [bigEndian, List.foldl_append, foldl_octets]
  rfl

theorem bigEndian_reverse_digits (digits : List Nat) (small : ∀ digit ∈ digits, digit < 256) :
    bigEndian ((digits.map UInt8.ofNat).reverse) = Nat.ofDigits 256 digits := by
  induction digits with
  | nil => rfl
  | cons digit rest ih =>
    have here : (UInt8.ofNat digit).toNat = digit := by
      rw [UInt8.toNat_ofNat']
      exact Nat.mod_eq_of_lt (small digit List.mem_cons_self)
    have later := ih fun other member => small other (List.mem_cons_of_mem _ member)
    rw [List.map_cons, List.reverse_cons, bigEndian_append, later, Nat.ofDigits_cons]
    simp only [bigEndian, List.foldl_cons, List.foldl_nil, List.length_singleton, here]
    ring

@[simp] theorem bigEndian_octetsOf (value : Nat) : bigEndian (octetsOf value) = value := by
  rw [octetsOf, bigEndian_reverse_digits _ fun _ member => Nat.digits_lt_base (by decide) member, Nat.ofDigits_digits]

theorem length_octetsOf_le {value width : Nat} (fits : value < 256 ^ width) : (octetsOf value).length ≤ width := by
  rw [octetsOf, List.length_reverse, List.length_map]
  exact (Nat.digits_length_le_iff (by decide) value).mpr fits

theorem length_octetsOf_pos {value : Nat} (positive : 0 < value) : 0 < (octetsOf value).length := by
  rw [octetsOf, List.length_reverse, List.length_map]
  exact List.length_pos_iff.mpr (Nat.digits_ne_nil_iff_ne_zero.mpr positive.ne')

/-- So many octets that stand for a number. -/
def beOctets : Nat → Nat → Octets
  | 0, _ => []
  | width + 1, value => beOctets width (value / 256) ++ [UInt8.ofNat value]

@[simp] theorem length_beOctets (width value : Nat) : (beOctets width value).length = width := by
  induction width generalizing value with
  | zero => rfl
  | succ width ih => rw [beOctets, List.length_append, ih, List.length_singleton]

theorem bigEndian_beOctets {width value : Nat} (fits : value < 256 ^ width) : bigEndian (beOctets width value) = value := by
  induction width generalizing value with
  | zero =>
    rw [Nat.pow_zero] at fits
    exact (Nat.lt_one_iff.mp fits).symm
  | succ width ih =>
    rw [Nat.pow_succ] at fits
    rw [beOctets, bigEndian_append, ih (Nat.div_lt_of_lt_mul (by omega)), List.length_singleton]
    simp only [bigEndian, List.foldl_cons, List.foldl_nil, UInt8.toNat_ofNat']
    omega

theorem bigEndian_lt (octets : Octets) : bigEndian octets < 256 ^ octets.length := by
  induction octets with
  | nil => decide
  | cons octet rest ih =>
    have small := octet.toNat_lt
    rw [bigEndian_cons, List.length_cons, Nat.pow_succ]
    have step : octet.toNat * 256 ^ rest.length ≤ 255 * 256 ^ rest.length := Nat.mul_le_mul_right _ (by omega)
    omega

theorem beOctets_bigEndian (octets : Octets) : beOctets octets.length (bigEndian octets) = octets := by
  induction octets using List.reverseRecOn with
  | nil => rfl
  | append_singleton front last ih =>
    have small := last.toNat_lt
    have whole : bigEndian (front ++ [last]) = bigEndian front * 256 + last.toNat := by
      rw [bigEndian_append]
      simp [bigEndian]
    rw [List.length_append, List.length_singleton, beOctets, whole, show (bigEndian front * 256 + last.toNat) / 256 =
      bigEndian front by omega, ih]
    congr 2
    apply UInt8.toNat_inj.mp
    rw [UInt8.toNat_ofNat']
    omega

end Machine
