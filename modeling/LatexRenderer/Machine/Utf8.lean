import Mathlib.Data.List.Basic
import LatexRenderer.Machine.Octets

/-! # UTF-8 with replacement

A decoder that reads octets one at a time and answers U+FFFD for every ill-formed sequence. A text may be decoded in
parts wherever no sequence is cut: at an octet that continues no sequence, and where nothing is owed. What an encoder
wrote is read back as it was.
-/

namespace Machine

/-- A sequence that is not finished: how many octets follow the next one, the bounds of the next one, and what the
sequence stands for so far. -/
structure Utf8Pending where
  more : Nat
  low : Nat
  high : Nat
  code : Nat
  least : 0x80 ≤ low
  greatest : high ≤ 0xBF

/-- Where a decoder stands between octets. -/
inductive Utf8State where
  | ground
  | pending (sequence : Utf8Pending)

/-- What stands for an ill-formed sequence. -/
def replacement : Char := Char.ofNat 0xFFFD

/-- The octet continues a sequence. -/
def continuation (octet : UInt8) : Bool := decide (0x80 ≤ octet.toNat ∧ octet.toNat ≤ 0xBF)

/-- An octet between sequences. -/
def utf8First (octet : UInt8) : List Char × Utf8State :=
  if octet.toNat < 0x80 then ([Char.ofNat octet.toNat], .ground)
  else if octet.toNat < 0xC2 then ([replacement], .ground)
  else if octet.toNat < 0xE0 then ([], .pending ⟨0, 0x80, 0xBF, octet.toNat - 0xC0, by decide, by decide⟩)
  else if octet.toNat = 0xE0 then ([], .pending ⟨1, 0xA0, 0xBF, 0, by decide, by decide⟩)
  else if octet.toNat = 0xED then ([], .pending ⟨1, 0x80, 0x9F, 0xD, by decide, by decide⟩)
  else if octet.toNat < 0xF0 then ([], .pending ⟨1, 0x80, 0xBF, octet.toNat - 0xE0, by decide, by decide⟩)
  else if octet.toNat = 0xF0 then ([], .pending ⟨2, 0x90, 0xBF, 0, by decide, by decide⟩)
  else if octet.toNat < 0xF4 then ([], .pending ⟨2, 0x80, 0xBF, octet.toNat - 0xF0, by decide, by decide⟩)
  else if octet.toNat = 0xF4 then ([], .pending ⟨2, 0x80, 0x8F, 4, by decide, by decide⟩)
  else ([replacement], .ground)

/-- An octet. One that does not continue the sequence before it is read again between sequences. -/
def utf8Step : Utf8State → UInt8 → List Char × Utf8State
  | .ground, octet => utf8First octet
  | .pending sequence, octet =>
    if sequence.low ≤ octet.toNat ∧ octet.toNat ≤ sequence.high then
      if sequence.more = 0 then ([Char.ofNat (sequence.code * 64 + (octet.toNat - 0x80))], .ground)
      else
        ([], .pending ⟨sequence.more - 1, 0x80, 0xBF, sequence.code * 64 + (octet.toNat - 0x80), by decide, by decide⟩)
    else (replacement :: (utf8First octet).1, (utf8First octet).2)

/-- The octets, one after another. -/
def utf8Run (state : Utf8State) : Octets → List Char × Utf8State
  | [] => ([], state)
  | octet :: rest =>
    ((utf8Step state octet).1 ++ (utf8Run (utf8Step state octet).2 rest).1, (utf8Run (utf8Step state octet).2 rest).2)

/-- What an end answers for. -/
def Utf8State.flush : Utf8State → List Char
  | .ground => []
  | .pending _ => [replacement]

/-- The text that octets stand for. -/
def utf8Text (octets : Octets) : List Char := (utf8Run .ground octets).1 ++ (utf8Run .ground octets).2.flush

/-- The octets of a text. -/
def utf8Encode (text : List Char) : Octets := text.flatMap String.utf8EncodeChar

section Run

variable {front : Octets} {octet : UInt8}

theorem utf8Run_append (state : Utf8State) (front back : Octets) :
    utf8Run state (front ++ back) =
      ((utf8Run state front).1 ++ (utf8Run (utf8Run state front).2 back).1,
        (utf8Run (utf8Run state front).2 back).2) := by
  induction front generalizing state with
  | nil => rfl
  | cons octet rest ih => simp [utf8Run, ih]

/-- Where nothing is owed, what follows is read on its own. -/
theorem utf8Text_append_of_ground (ground : (utf8Run .ground front).2 = .ground) (back : Octets) :
    utf8Text (front ++ back) = utf8Text front ++ utf8Text back := by
  have whole : utf8Text front = (utf8Run .ground front).1 := by
    rw [utf8Text, ground]
    exact List.append_nil _
  rw [whole, utf8Text, utf8Run_append, ground, List.append_assoc]
  rfl

/-- An octet that continues nothing ends what came before it, as an end would. -/
theorem utf8Step_lead (state : Utf8State) (lead : continuation octet = false) :
    utf8Step state octet = (state.flush ++ (utf8First octet).1, (utf8First octet).2) := by
  cases state with
  | ground => rfl
  | pending sequence =>
    have least := sequence.least
    have greatest := sequence.greatest
    have outside : ¬ (sequence.low ≤ octet.toNat ∧ octet.toNat ≤ sequence.high) := by
      simp only [continuation, decide_eq_false_iff_not] at lead
      omega
    rw [utf8Step, if_neg outside]
    rfl

theorem utf8Run_lead (state : Utf8State) (lead : continuation octet = false) (rest : Octets) :
    utf8Run state (octet :: rest) =
      (state.flush ++ (utf8Run .ground (octet :: rest)).1, (utf8Run .ground (octet :: rest)).2) := by
  simp only [utf8Run, utf8Step_lead _ lead, Utf8State.flush, List.nil_append, List.append_assoc]

/-- A text may be decoded in parts before an octet that continues nothing. -/
theorem utf8Text_append_of_lead (front : Octets) (lead : continuation octet = false) (rest : Octets) :
    utf8Text (front ++ octet :: rest) = utf8Text front ++ utf8Text (octet :: rest) := by
  rw [utf8Text, utf8Run_append, utf8Run_lead _ lead, utf8Text, utf8Text]
  simp only [List.append_assoc]

end Run

/-! ## What is owed -/

/-- How many octets the decoder waits for. -/
def Utf8State.owed : Utf8State → Nat
  | .ground => 0
  | .pending sequence => sequence.more + 1

/-- How long the sequence is that an octet starts, as its first bits say; 0 where it starts none. -/
def sequenceLength (octet : UInt8) : Nat :=
  if 0xC0 ≤ octet.toNat ∧ octet.toNat ≤ 0xDF then 2
  else if 0xE0 ≤ octet.toNat ∧ octet.toNat ≤ 0xEF then 3
  else if 0xF0 ≤ octet.toNat ∧ octet.toNat ≤ 0xF7 then 4
  else 0

section Owed

variable {octet : UInt8} {conts : Octets}

theorem Utf8State.eq_ground_of_owed {state : Utf8State} (paid : state.owed = 0) : state = .ground := by
  cases state with
  | ground => rfl
  | pending sequence => exact absurd paid (Nat.succ_ne_zero _)

theorem sequenceLength_le (octet : UInt8) : sequenceLength octet ≤ 4 := by
  unfold sequenceLength
  split_ifs <;> omega

/-- After its first octet, a sequence owes no more than its length says. -/
theorem owed_utf8First (octet : UInt8) : (utf8First octet).2.owed ≤ sequenceLength octet - 1 := by
  unfold utf8First sequenceLength
  split_ifs <;> simp only [Utf8State.owed] <;> omega

theorem utf8First_continuation (inside : continuation octet = true) : utf8First octet = ([replacement], .ground) := by
  simp only [continuation, decide_eq_true_eq] at inside
  rw [utf8First, if_neg (by omega), if_pos (by omega)]

/-- A continuation pays one of the octets that are owed. -/
theorem owed_utf8Step (state : Utf8State) (inside : continuation octet = true) : (utf8Step state octet).2.owed ≤ state.owed - 1 := by
  cases state with
  | ground => simp [utf8Step, utf8First_continuation inside, Utf8State.owed]
  | pending sequence =>
    rw [utf8Step]
    split_ifs
    · exact Nat.zero_le _
    · show sequence.more - 1 + 1 ≤ sequence.more + 1 - 1
      omega
    · rw [utf8First_continuation inside]
      exact Nat.zero_le _

theorem owed_utf8Run (state : Utf8State) (inside : ∀ octet ∈ conts, continuation octet = true) :
    (utf8Run state conts).2.owed ≤ state.owed - conts.length := by
  induction conts generalizing state with
  | nil => exact Nat.le_refl _
  | cons octet rest ih =>
    have step := owed_utf8Step state (inside octet List.mem_cons_self)
    have later := ih (utf8Step state octet).2 fun other member => inside other (List.mem_cons_of_mem _ member)
    show (utf8Run (utf8Step state octet).2 rest).2.owed ≤ state.owed - (octet :: rest).length
    rw [List.length_cons]
    omega

/-- Continuations alone leave nothing owed. -/
theorem utf8Run_conts (inside : ∀ octet ∈ conts, continuation octet = true) : (utf8Run .ground conts).2 = .ground :=
  Utf8State.eq_ground_of_owed (Nat.le_zero.mp (by simpa [Utf8State.owed] using owed_utf8Run .ground inside))

/-- A sequence with all its continuations leaves nothing owed. -/
theorem utf8Run_sequence (state : Utf8State) (lead : continuation octet = false)
    (inside : ∀ octet ∈ conts, continuation octet = true) (whole : sequenceLength octet ≤ conts.length + 1) :
    (utf8Run state (octet :: conts)).2 = .ground := by
  apply Utf8State.eq_ground_of_owed
  have first := owed_utf8First octet
  have later := owed_utf8Run (utf8First octet).2 inside
  show (utf8Run (utf8Step state octet).2 conts).2.owed = 0
  rw [utf8Step_lead _ lead]
  show (utf8Run (utf8First octet).2 conts).2.owed = 0
  omega

end Owed

/-! ## Reading back what was written -/

section Encode

theorem char_valid (c : Char) : c.toNat < 0xD800 ∨ 0xDFFF < c.toNat ∧ c.toNat < 0x110000 := c.valid

theorem toNat_octet {value : Nat} (small : value < 256) : (UInt8.ofNat value).toNat = value := by
  rw [UInt8.toNat_ofNat']
  exact Nat.mod_eq_of_lt small

/-- The first octet of a sequence of two. -/
theorem utf8First_two {code : Nat} (large : 0x7F < code) (small : code ≤ 0x7FF) :
    ∃ sequence, utf8First (UInt8.ofNat (code / 64 % 32 + 0xC0)) = ([], .pending sequence) ∧
      sequence.more = 0 ∧ sequence.code = code / 64 ∧ sequence.low = 0x80 ∧ sequence.high = 0xBF := by
  unfold utf8First
  rw [toNat_octet (by omega), if_neg (by omega), if_neg (by omega), if_pos (by omega)]
  exact ⟨_, rfl, rfl, by simp only; omega, rfl, rfl⟩

/-- The first octet of a sequence of three bounds the next one. -/
theorem utf8First_three {code : Nat} (large : 0x7FF < code) (small : code ≤ 0xFFFF)
    (valid : code < 0xD800 ∨ 0xDFFF < code) :
    ∃ sequence, utf8First (UInt8.ofNat (code / 4096 % 16 + 0xE0)) = ([], .pending sequence) ∧
      sequence.more = 1 ∧ sequence.code = code / 4096 ∧
      sequence.low ≤ code / 64 % 64 + 0x80 ∧ code / 64 % 64 + 0x80 ≤ sequence.high := by
  unfold utf8First
  rw [toNat_octet (by omega), if_neg (by omega), if_neg (by omega), if_neg (by omega)]
  split_ifs
  · exact ⟨_, rfl, rfl, by simp only; omega, by simp only; omega, by simp only; omega⟩
  · exact ⟨_, rfl, rfl, by simp only; omega, by simp only; omega, by simp only; omega⟩
  · exact ⟨_, rfl, rfl, by simp only; omega, by simp only; omega, by simp only; omega⟩
  all_goals omega

/-- The first octet of a sequence of four bounds the next one. -/
theorem utf8First_four {code : Nat} (large : 0xFFFF < code) (small : code < 0x110000) :
    ∃ sequence, utf8First (UInt8.ofNat (code / 262144 % 8 + 0xF0)) = ([], .pending sequence) ∧
      sequence.more = 2 ∧ sequence.code = code / 262144 ∧
      sequence.low ≤ code / 4096 % 64 + 0x80 ∧ code / 4096 % 64 + 0x80 ≤ sequence.high := by
  unfold utf8First
  rw [toNat_octet (by omega), if_neg (by omega), if_neg (by omega), if_neg (by omega), if_neg (by omega),
    if_neg (by omega), if_neg (by omega)]
  split_ifs
  · exact ⟨_, rfl, rfl, by simp only; omega, by simp only; omega, by simp only; omega⟩
  · exact ⟨_, rfl, rfl, by simp only; omega, by simp only; omega, by simp only; omega⟩
  · exact ⟨_, rfl, rfl, by simp only; omega, by simp only; omega, by simp only; omega⟩
  · omega

/-- A continuation that more are to follow. -/
theorem utf8Step_more {sequence : Utf8Pending} (value : Nat) (more : sequence.more ≠ 0) (small : value < 64)
    (low : sequence.low ≤ value + 0x80) (high : value + 0x80 ≤ sequence.high) :
    ∃ next, utf8Step (.pending sequence) (UInt8.ofNat (value + 0x80)) = ([], .pending next) ∧
      next.more = sequence.more - 1 ∧ next.code = sequence.code * 64 + value ∧ next.low = 0x80 ∧ next.high = 0xBF := by
  rw [utf8Step, toNat_octet (by omega), if_pos ⟨low, high⟩, if_neg more]
  exact ⟨_, rfl, rfl, by simp, rfl, rfl⟩

/-- The last continuation of a sequence. -/
theorem utf8Step_last {sequence : Utf8Pending} (value : Nat) (last : sequence.more = 0) (small : value < 64)
    (low : sequence.low ≤ value + 0x80) (high : value + 0x80 ≤ sequence.high) :
    utf8Step (.pending sequence) (UInt8.ofNat (value + 0x80)) =
      ([Char.ofNat (sequence.code * 64 + value)], .ground) := by
  rw [utf8Step, toNat_octet (by omega), if_pos ⟨low, high⟩, if_pos last, Nat.add_sub_cancel]

/-- The octets of a character are read as that character. -/
theorem utf8Run_encodeChar (c : Char) : utf8Run .ground (String.utf8EncodeChar c) = ([c], .ground) := by
  have valid := char_valid c
  obtain ⟨code, same⟩ : ∃ code, code = c.toNat := ⟨_, rfl⟩
  have char : Char.ofNat code = c := same ▸ Char.ofNat_toNat c
  rw [← same] at valid
  have value : c.val.toNat = code := same.symm
  unfold String.utf8EncodeChar
  simp only [value]
  split_ifs with one two three
  · rw [utf8Run, utf8Step, utf8First, toNat_octet (by omega), if_pos (by omega), char]
    rfl
  · obtain ⟨first, read, more, high, low, top⟩ := utf8First_two (by omega) two
    have last := utf8Step_last (code % 64) more (by omega) (by omega) (by omega)
    simp only [utf8Run, utf8Step.eq_1, read, last, high]
    rw [show code / 64 * 64 + code % 64 = code by omega, char]
    rfl
  · obtain ⟨first, read, more, high, low, top⟩ := utf8First_three (by omega) three (by omega)
    obtain ⟨second, step, fewer, middle, least, most⟩ :=
      utf8Step_more (code / 64 % 64) (by omega) (by omega) low top
    have last := utf8Step_last (code % 64) (by omega : second.more = 0) (by omega) (by omega) (by omega)
    simp only [utf8Run, utf8Step.eq_1, read, step, last, middle, high]
    rw [show (code / 4096 * 64 + code / 64 % 64) * 64 + code % 64 = code by omega, char]
    rfl
  · obtain ⟨first, read, more, high, low, top⟩ := utf8First_four (by omega) (by omega : code < 0x110000)
    obtain ⟨second, step, fewer, upper, least, most⟩ :=
      utf8Step_more (code / 4096 % 64) (by omega) (by omega) low top
    obtain ⟨third, again, fewest, middle, low3, most3⟩ :=
      utf8Step_more (code / 64 % 64) (by omega : second.more ≠ 0) (by omega) (by omega) (by omega)
    have last := utf8Step_last (code % 64) (by omega : third.more = 0) (by omega) (by omega) (by omega)
    simp only [utf8Run, utf8Step.eq_1, read, step, again, last, middle, upper, high]
    rw [show ((code / 262144 * 64 + code / 4096 % 64) * 64 + code / 64 % 64) * 64 + code % 64 = code by omega, char]
    rfl

/-- What was written is read back. -/
theorem utf8Text_encode (text : List Char) : utf8Text (utf8Encode text) = text := by
  have run : utf8Run .ground (utf8Encode text) = (text, .ground) := by
    induction text with
    | nil => rfl
    | cons c rest ih =>
      rw [utf8Encode, List.flatMap_cons, utf8Run_append, utf8Run_encodeChar]
      show ([c] ++ (utf8Run .ground (utf8Encode rest)).1, (utf8Run .ground (utf8Encode rest)).2) = _
      rw [ih]
      rfl
  rw [utf8Text, run]
  exact List.append_nil text

end Encode

end Machine
