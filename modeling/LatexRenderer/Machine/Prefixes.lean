import Mathlib.Tactic.Ring
import Mathlib.Data.Nat.Bitwise

/-! # Networks of addresses with a common prefix

An address of so many bits is in a network when it has the bits of the network up to the length of its prefix. The mask
of a length has just these bits.
-/

namespace Machine

variable {bits length longer base value address : Nat}

/-- The address has the first bits of the base. -/
def InPrefix (bits base length address : Nat) : Prop := address / 2 ^ (bits - length) = base / 2 ^ (bits - length)

instance : Decidable (InPrefix bits base length address) := inferInstanceAs (Decidable (_ = _))

/-- The mask of a prefix: ones, and then zeros. -/
def prefixMask (bits length : Nat) : Nat := (2 ^ bits - 1) ^^^ (2 ^ (bits - length) - 1)

/-- A mask takes the last bits away. -/
theorem and_prefixMask (small : value < 2 ^ bits) :
    value &&& prefixMask bits length = value / 2 ^ (bits - length) * 2 ^ (bits - length) := by
  apply Nat.eq_of_testBit_eq
  intro i
  rw [prefixMask, Nat.testBit_and, Nat.testBit_xor, Nat.testBit_two_pow_sub_one, Nat.testBit_two_pow_sub_one,
    Nat.testBit_mul_two_pow, Nat.testBit_div_two_pow]
  by_cases first : bits - length ≤ i
  · have later : ¬ i < bits - length := Nat.not_lt.mpr first
    have place : i - (bits - length) + (bits - length) = i := Nat.sub_add_cancel first
    by_cases inside : i < bits
    · simp [inside, later, first, place]
    · have outside : value.testBit i = false :=
        Nat.testBit_lt_two_pow (Nat.lt_of_lt_of_le small (Nat.pow_le_pow_right (by decide) (Nat.not_lt.mp inside)))
      simp [inside, later, first, place, outside]
  · have before : i < bits - length := Nat.not_le.mp first
    have inside : i < bits := by omega
    rw [decide_eq_true inside, decide_eq_true before, decide_eq_false (show ¬ i ≥ bits - length from first)]
    simp

/-- A base without other bits than those of its prefix. -/
theorem and_prefixMask_eq_self (small : value < 2 ^ bits) :
    value &&& prefixMask bits length = value ↔ 2 ^ (bits - length) ∣ value := by
  rw [and_prefixMask small, Nat.dvd_iff_div_mul_eq]

/-- The masked address is the base when it has the prefix of the base. -/
theorem and_prefixMask_eq_iff (small : address < 2 ^ bits) (exact_base : 2 ^ (bits - length) ∣ base) :
    address &&& prefixMask bits length = base ↔ InPrefix bits base length address := by
  rw [and_prefixMask small, InPrefix]
  obtain ⟨quotient, rfl⟩ := exact_base
  have positive : 0 < 2 ^ (bits - length) := Nat.two_pow_pos _
  rw [Nat.mul_div_cancel_left _ positive, Nat.mul_comm]
  exact Nat.mul_right_inj (Nat.ne_of_gt positive)

/-- A network with a longer prefix in another one is inside of it. -/
theorem InPrefix.trans {inner : Nat} (outer : InPrefix bits base length inner) (more : length ≤ longer)
    (held : InPrefix bits inner longer address) : InPrefix bits base length address := by
  have split : 2 ^ (bits - length) = 2 ^ (bits - longer) * 2 ^ ((bits - length) - (bits - longer)) := by
    rw [← Nat.pow_add]
    congr 1
    omega
  unfold InPrefix at *
  rw [← outer, split, ← Nat.div_div_eq_div_mul, ← Nat.div_div_eq_div_mul, held]

/-- What is left of an address when its last bits are cleared is the base of its network. -/
theorem inPrefix_cleared (bits length address : Nat) :
    InPrefix bits (address / 2 ^ (bits - length) * 2 ^ (bits - length)) length address :=
  (Nat.mul_div_cancel _ (Nat.two_pow_pos _)).symm

section Words

variable {width count : Nat} {words : List Nat}

/-- The number that words of so many bits make, the first one highest. -/
def joinWords (width : Nat) (words : List Nat) : Nat := words.foldl (fun n word => n * 2 ^ width + word) 0

theorem foldl_words (start : Nat) (words : List Nat) :
    words.foldl (fun n word => n * 2 ^ width + word) start = start * 2 ^ (width * words.length) + joinWords width words := by
  induction words generalizing start with
  | nil => simp [joinWords]
  | cons word rest ih =>
    rw [joinWords, List.foldl_cons, List.foldl_cons, ih, ih (0 * 2 ^ width + word), List.length_cons, Nat.mul_succ,
      Nat.pow_add]
    ring

@[simp] theorem joinWords_nil : joinWords width [] = 0 := rfl

theorem joinWords_cons (word : Nat) (rest : List Nat) :
    joinWords width (word :: rest) = word * 2 ^ (width * rest.length) + joinWords width rest := by
  rw [joinWords, List.foldl_cons, foldl_words, Nat.zero_mul, Nat.zero_add]

theorem joinWords_lt (small : ∀ word ∈ words, word < 2 ^ width) : joinWords width words < 2 ^ (width * words.length) := by
  induction words with
  | nil => exact Nat.two_pow_pos _
  | cons word rest ih =>
    have first := small word List.mem_cons_self
    have later := ih fun other member => small other (List.mem_cons_of_mem _ member)
    rw [joinWords_cons, List.length_cons, Nat.mul_succ, Nat.add_comm (width * rest.length), Nat.pow_add]
    calc word * 2 ^ (width * rest.length) + joinWords width rest
        < word * 2 ^ (width * rest.length) + 2 ^ (width * rest.length) := Nat.add_lt_add_left later _
      _ = (word + 1) * 2 ^ (width * rest.length) := by ring
      _ ≤ 2 ^ width * 2 ^ (width * rest.length) := Nat.mul_le_mul_right _ first

/-- The first word is what stands before the others. -/
theorem joinWords_div {word : Nat} {rest : List Nat} (small : ∀ word ∈ rest, word < 2 ^ width) :
    joinWords width (word :: rest) / 2 ^ (width * rest.length) = word := by
  rw [joinWords_cons, Nat.add_comm, Nat.add_mul_div_right _ _ (Nat.two_pow_pos _), Nat.div_eq_of_lt (joinWords_lt small),
    Nat.zero_add]

/-- Shifting and setting bits makes the same number of words that fit. -/
theorem foldl_shiftLeft_or {α : Type} (width : Nat) (read : α → Nat) {parts : List α}
    (small : ∀ part ∈ parts, read part < 2 ^ width) (start : Nat) : parts.foldl (fun n part => n <<< width ||| read part) start =
      (parts.map read).foldl (fun n word => n * 2 ^ width + word) start := by
  induction parts generalizing start with
  | nil => rfl
  | cons part rest ih =>
    have first := small part List.mem_cons_self
    rw [List.foldl_cons, List.map_cons, List.foldl_cons, ← Nat.shiftLeft_add_eq_or_of_lt first, Nat.shiftLeft_eq]
    exact ih (fun other member => small other (List.mem_cons_of_mem _ member)) _

/-- The words of a number. -/
def wordsOf (width : Nat) : Nat → Nat → List Nat
  | 0, _ => []
  | count + 1, value => (value >>> (width * count) &&& (2 ^ width - 1)) :: wordsOf width count value

theorem length_wordsOf (value : Nat) : (wordsOf width count value).length = count := by
  induction count with
  | zero => rfl
  | succ count ih => rw [wordsOf, List.length_cons, ih]

theorem wordsOf_lt {value word : Nat} (member : word ∈ wordsOf width count value) : word < 2 ^ width := by
  induction count with
  | zero => cases member
  | succ count ih =>
    rcases List.mem_cons.mp member with rfl | later
    · rw [Nat.and_two_pow_sub_one_eq_mod]
      exact Nat.mod_lt _ (Nat.two_pow_pos _)
    · exact ih later

/-- The words of a number make its last bits. -/
theorem joinWords_wordsOf (value : Nat) : joinWords width (wordsOf width count value) = value % 2 ^ (width * count) := by
  induction count with
  | zero => simp [wordsOf, Nat.mod_one]
  | succ count ih =>
    rw [wordsOf, joinWords_cons, length_wordsOf, ih, Nat.and_two_pow_sub_one_eq_mod, Nat.shiftRight_eq_div_pow,
      Nat.mul_succ, Nat.pow_add, Nat.mod_mul, Nat.mul_comm (value / _ % _)]
    omega

end Words

end Machine
