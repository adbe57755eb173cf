import LatexRenderer.Model.Deploy.LanAddress

/-! # Splitting and joining texts

What is split at a character joins again, and what is joined splits again where the parts do not have the character.
-/

namespace LatexRenderer

section Split

variable {separator : Char} {text front back : Text} {parts : List Text}

theorem splitText_ne_nil (separator : Char) (text : Text) : splitText separator text ≠ [] := by
  induction text with
  | nil => exact List.cons_ne_nil _ _
  | cons c rest ih =>
    rw [splitText]
    split
    · exact List.cons_ne_nil _ _
    · split <;> exact List.cons_ne_nil _ _

theorem splitText_of_not_mem (absent : separator ∉ text) : splitText separator text = [text] := by
  induction text with
  | nil => rfl
  | cons c rest ih =>
    have apart : c ≠ separator ∧ separator ∉ rest := by simpa [eq_comm] using absent
    rw [splitText, if_neg apart.1, ih apart.2]

/-- A separator ends a part. -/
theorem splitText_append (separator : Char) (front back : Text) :
    splitText separator (front ++ separator :: back) = splitText separator front ++ splitText separator back := by
  induction front with
  | nil => simp [splitText]
  | cons c rest ih =>
    rw [List.cons_append, splitText, splitText, ih]
    split
    · rfl
    · obtain ⟨part, parts, shape⟩ := List.exists_cons_of_ne_nil (splitText_ne_nil separator rest)
      rw [shape]
      rfl

theorem splitText_cons_part (absent : separator ∉ front) :
    splitText separator (front ++ separator :: back) = front :: splitText separator back := by
  rw [splitText_append, splitText_of_not_mem absent]
  rfl

/-- What is joined splits again. -/
theorem splitText_joinText (separator : Char) (some : parts ≠ []) (absent : ∀ part ∈ parts, separator ∉ part) :
    splitText separator (joinText separator parts) = parts := by
  induction parts with
  | nil => exact absurd rfl some
  | cons part rest ih =>
    cases rest with
    | nil => exact splitText_of_not_mem (absent part List.mem_cons_self)
    | cons second rest =>
      rw [joinText, splitText_cons_part (absent part List.mem_cons_self),
        ih (List.cons_ne_nil _ _) fun other member => absent other (List.mem_cons_of_mem _ member)]
      exact List.cons_ne_nil _ _

/-- What is split joins again. -/
theorem joinText_splitText : joinText separator (splitText separator text) = text := by
  induction text with
  | nil => rfl
  | cons c rest ih =>
    rw [splitText]
    split
    · next same =>
      obtain ⟨part, parts, shape⟩ := List.exists_cons_of_ne_nil (splitText_ne_nil separator rest)
      rw [shape] at ih ⊢
      rw [joinText, ih, same, List.nil_append]
      exact List.cons_ne_nil _ _
    · obtain ⟨part, parts, shape⟩ := List.exists_cons_of_ne_nil (splitText_ne_nil separator rest)
      rw [shape] at ih ⊢
      dsimp only
      cases parts with
      | nil => exact congrArg (c :: ·) ih
      | cons second parts => exact congrArg (c :: ·) ih

theorem not_mem_splitText {part : Text} (member : part ∈ splitText separator text) : separator ∉ part := by
  induction text generalizing part with
  | nil =>
    rw [List.mem_singleton.mp member]
    exact List.not_mem_nil
  | cons c rest ih =>
    rw [splitText] at member
    split at member
    · rcases List.mem_cons.mp member with rfl | later
      · exact List.not_mem_nil
      · exact ih later
    · next apart =>
      obtain ⟨first, parts, shape⟩ := List.exists_cons_of_ne_nil (splitText_ne_nil separator rest)
      rw [shape] at member ih
      rcases List.mem_cons.mp member with rfl | later
      · exact List.not_mem_cons_of_ne_of_not_mem (fun same => apart same.symm) (ih List.mem_cons_self)
      · exact ih (List.mem_cons_of_mem _ later)

/-- A map that keeps the separator apart commutes with splitting. -/
theorem splitText_map {change : Char → Char} (apart : ∀ c, change c = separator ↔ c = separator) (text : Text) :
    splitText separator (text.map change) = (splitText separator text).map (·.map change) := by
  induction text with
  | nil => rfl
  | cons c rest ih =>
    rw [List.map_cons, splitText, splitText, ih]
    by_cases same : c = separator
    · rw [if_pos ((apart c).mpr same), if_pos same]
      rfl
    · rw [if_neg fun equal => same ((apart c).mp equal), if_neg same]
      obtain ⟨front, parts, shape⟩ := List.exists_cons_of_ne_nil (splitText_ne_nil separator rest)
      rw [shape]
      rfl

/-- A map that keeps the separator commutes with joining. -/
theorem map_joinText {change : Char → Char} (kept : change separator = separator) (parts : List Text) :
    (joinText separator parts).map change = joinText separator (parts.map (·.map change)) := by
  induction parts with
  | nil => rfl
  | cons part rest ih =>
    cases rest with
    | nil => rfl
    | cons second rest =>
      have tail : (joinText separator (second :: rest)).map change =
          joinText separator (second.map change :: rest.map (·.map change)) := ih
      show (part ++ separator :: joinText separator (second :: rest)).map change =
        part.map change ++ separator :: joinText separator (second.map change :: rest.map (·.map change))
      rw [List.map_append, List.map_cons, kept, tail]

theorem length_splitText (separator : Char) (text : Text) :
    ((splitText separator text).map fun part => part.length + 1).sum = text.length + 1 := by
  induction text with
  | nil => rfl
  | cons c rest ih =>
    rw [splitText]
    split
    · rw [List.map_cons, List.sum_cons, ih, List.length_cons, List.length_nil]
      omega
    · obtain ⟨front, parts, shape⟩ := List.exists_cons_of_ne_nil (splitText_ne_nil separator rest)
      rw [shape] at ih ⊢
      rw [List.map_cons, List.sum_cons] at ih
      dsimp only
      rw [List.map_cons, List.sum_cons, List.length_cons, List.length_cons]
      omega

end Split

section Units

/-- The UTF-16 units of a text, by which texts are compared. -/
def utf16Units (text : Text) : List Nat :=
  text.flatMap fun c =>
    if c.toNat < 0x10000 then [c.toNat]
    else [0xd800 + (c.toNat - 0x10000) / 0x400, 0xdc00 + (c.toNat - 0x10000) % 0x400]

/-- Units are compared one after another; the shorter of two that agree is first. -/
def unitsBefore : List Nat → List Nat → Bool
  | [], _ => true
  | _ :: _, [] => false
  | a :: first, b :: second => decide (a < b) || (decide (a = b) && unitsBefore first second)

theorem unitsBefore_trans {first second third : List Nat} (one : unitsBefore first second = true)
    (two : unitsBefore second third = true) : unitsBefore first third = true := by
  induction first generalizing second third with
  | nil => rfl
  | cons a first ih =>
    cases second with
    | nil => cases one
    | cons b second =>
      cases third with
      | nil => cases two
      | cons c third =>
        simp only [unitsBefore, Bool.or_eq_true, Bool.and_eq_true, decide_eq_true_eq] at one two ⊢
        rcases one with less | ⟨rfl, one⟩ <;> rcases two with less' | ⟨rfl, two⟩
        · exact .inl (less.trans less')
        · exact .inl less
        · exact .inl less'
        · exact .inr ⟨rfl, ih one two⟩

theorem unitsBefore_total (first second : List Nat) : unitsBefore first second = true ∨ unitsBefore second first = true := by
  induction first generalizing second with
  | nil => exact .inl rfl
  | cons a first ih =>
    cases second with
    | nil => exact .inr rfl
    | cons b second =>
      simp only [unitsBefore, Bool.or_eq_true, Bool.and_eq_true, decide_eq_true_eq]
      rcases Nat.lt_trichotomy a b with less | rfl | greater
      · exact .inl (.inl less)
      · exact (ih second).imp (fun before => .inr ⟨rfl, before⟩) fun before => .inr ⟨rfl, before⟩
      · exact .inr (.inl greater)

theorem unitsBefore_antisymm {first second : List Nat} (one : unitsBefore first second = true)
    (two : unitsBefore second first = true) : first = second := by
  induction first generalizing second with
  | nil =>
    cases second with
    | nil => rfl
    | cons b second => cases two
  | cons a first ih =>
    cases second with
    | nil => cases one
    | cons b second =>
      simp only [unitsBefore, Bool.or_eq_true, Bool.and_eq_true, decide_eq_true_eq] at one two
      rcases one with less | ⟨rfl, one⟩
      · omega
      · rcases two with less | ⟨-, two⟩
        · omega
        · rw [ih one two]

/-- A character is known from the first units of a text, and so is the rest. -/
theorem utf16Units_cons {c d : Char} {first second : Text} (same : utf16Units (c :: first) = utf16Units (d :: second)) :
    c = d ∧ utf16Units first = utf16Units second := by
  have scalar : ∀ e : Char, e.toNat < 0xd800 ∨ 0xdfff < e.toNat ∧ e.toNat < 0x110000 := fun e => e.valid
  have left := scalar c
  have right := scalar d
  have unique : c.toNat = d.toNat → c = d := fun equal => Char.ext (UInt32.toNat_inj.mp equal)
  simp only [utf16Units, List.flatMap_cons] at same
  split at same <;> split at same <;> simp only [List.cons_append, List.nil_append, List.cons.injEq] at same
  · exact ⟨unique same.1, same.2⟩
  · omega
  · omega
  · exact ⟨unique (by omega), same.2.2⟩

theorem utf16Units_injective : Function.Injective utf16Units := by
  intro first
  induction first with
  | nil =>
    intro second same
    cases second with
    | nil => rfl
    | cons d rest =>
      simp only [utf16Units, List.flatMap_nil, List.flatMap_cons] at same
      split at same <;> cases same
  | cons c rest ih =>
    intro second same
    cases second with
    | nil =>
      simp only [utf16Units, List.flatMap_nil, List.flatMap_cons] at same
      split at same <;> cases same
    | cons d later =>
      obtain ⟨rfl, tails⟩ := utf16Units_cons same
      rw [ih tails]

end Units

end LatexRenderer
