import LatexRenderer.Machine.Octets

/-! # Records of fixed fields

A header of a binary format is a row of numbers, each with its width in octets, the least significant octet first. A row
that stands in a buffer is read back field by field, and every part of a buffer is the row of what is read there.
-/

namespace Machine

/-- So many octets that stand for a number, the least significant one first; higher ones are dropped. -/
def leOctets (width value : Nat) : Octets := (beOctets width value).reverse

/-- What stands for a number at an offset. -/
def readField (data : Octets) (offset width : Nat) : Nat := littleEndian (slice data offset (offset + width))

/-- What stands for a number at an offset, if the buffer goes that far. -/
def field? (data : Octets) (offset width : Nat) : Option Nat :=
  if offset + width ≤ data.length then some (readField data offset width) else none

/-- A row of numbers with their widths. -/
def fieldOctets (fields : List (Nat × Nat)) : Octets := fields.flatMap fun field => leOctets field.1 field.2

/-- The octets of a row. -/
def fieldsWidth : List (Nat × Nat) → Nat
  | [] => 0
  | field :: rest => field.1 + fieldsWidth rest

/-- A row is read at an offset. -/
def FieldsAt (data : Octets) : Nat → List (Nat × Nat) → Prop
  | _, [] => True
  | offset, (width, value) :: rest => readField data offset width = value ∧ FieldsAt data (offset + width) rest

/-- Every number of a row fits its width. -/
def FieldsFit (fields : List (Nat × Nat)) : Prop := ∀ field ∈ fields, field.2 < 256 ^ field.1

section Fields

variable {data : Octets} {offset width value : Nat} {fields : List (Nat × Nat)}

@[simp] theorem length_leOctets (width value : Nat) : (leOctets width value).length = width := by
  rw [leOctets, List.length_reverse, length_beOctets]

theorem littleEndian_leOctets (fits : value < 256 ^ width) : littleEndian (leOctets width value) = value := by
  rw [littleEndian, leOctets, List.reverse_reverse, bigEndian_beOctets fits]

theorem leOctets_littleEndian (octets : Octets) : leOctets octets.length (littleEndian octets) = octets := by
  have same := beOctets_bigEndian octets.reverse
  rw [List.length_reverse] at same
  rw [leOctets, littleEndian, same, List.reverse_reverse]

theorem littleEndian_lt (octets : Octets) : littleEndian octets < 256 ^ octets.length := by
  have bound := bigEndian_lt octets.reverse
  rwa [List.length_reverse] at bound

@[simp] theorem fieldOctets_cons (field : Nat × Nat) (rest : List (Nat × Nat)) :
    fieldOctets (field :: rest) = leOctets field.1 field.2 ++ fieldOctets rest := List.flatMap_cons

@[simp] theorem length_fieldOctets (fields : List (Nat × Nat)) : (fieldOctets fields).length = fieldsWidth fields := by
  induction fields with
  | nil => rfl
  | cons field rest ih => rw [fieldOctets_cons, List.length_append, ih, length_leOctets, fieldsWidth]

theorem readField_stands (stands : StandsAt data offset (leOctets width value)) (fits : value < 256 ^ width) :
    readField data offset width = value := by
  have part := stands.slice_eq
  rw [length_leOctets] at part
  rw [readField, part, littleEndian_leOctets fits]

/-- A row that stands in the buffer is read back. -/
theorem fieldsAt_stands (stands : StandsAt data offset (fieldOctets fields)) (fit : FieldsFit fields) :
    FieldsAt data offset fields := by
  induction fields generalizing offset with
  | nil => trivial
  | cons field rest ih =>
    rw [fieldOctets_cons] at stands
    obtain ⟨here, later⟩ := standsAt_append.mp stands
    rw [length_leOctets] at later
    exact ⟨readField_stands here (fit _ List.mem_cons_self),
      ih later fun other member => fit other (List.mem_cons_of_mem _ member)⟩

theorem readField_lt (data : Octets) (offset width : Nat) : readField data offset width < 256 ^ width := by
  have bound := littleEndian_lt (slice data offset (offset + width))
  have short : (slice data offset (offset + width)).length ≤ width := by
    rw [slice, List.length_take]
    omega
  exact Nat.lt_of_lt_of_le bound (Nat.pow_le_pow_right (by decide) short)

theorem leOctets_readField (inside : offset + width ≤ data.length) :
    leOctets width (readField data offset width) = slice data offset (offset + width) := by
  have same := leOctets_littleEndian (slice data offset (offset + width))
  rwa [length_slice offset inside, Nat.add_sub_cancel_left] at same

theorem field?_of (inside : offset + width ≤ data.length) : field? data offset width = some (readField data offset width) :=
  if_pos inside

theorem field?_eq_some : field? data offset width = some value ↔ offset + width ≤ data.length ∧ readField data offset width = value := by
  unfold field?
  split <;> simp_all

theorem FieldsAt.fit (read : FieldsAt data offset fields) : FieldsFit fields := by
  induction fields generalizing offset with
  | nil => intro field member; cases member
  | cons first rest ih =>
    intro field member
    rcases List.mem_cons.mp member with rfl | later
    · exact read.1 ▸ readField_lt data offset field.1
    · exact ih read.2 field later

/-- What is read of a part of the buffer stands there. -/
theorem FieldsAt.stands (read : FieldsAt data offset fields) (inside : offset + fieldsWidth fields ≤ data.length) :
    StandsAt data offset (fieldOctets fields) := by
  induction fields generalizing offset with
  | nil => exact List.nil_prefix
  | cons first rest ih =>
    rw [fieldsWidth] at inside
    rw [fieldOctets_cons]
    refine standsAt_append.mpr ⟨?_, ?_⟩
    · rw [← read.1, leOctets_readField (by omega)]
      exact standsAt_slice data offset _
    · rw [length_leOctets]
      exact ih read.2 (by omega)

end Fields

end Machine
