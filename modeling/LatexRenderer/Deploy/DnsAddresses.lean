import LatexRenderer.Deploy.AuthorityNames
import LatexRenderer.Deploy.DnsNames

/-! # Addresses in names, as texts and as octets

A canonical IPv6 address is read as the words it was written from, with its zeros compressed or not. So the octets of
an answer are those of the label.
-/

namespace LatexRenderer

open Machine

section Numbers

theorem numberText_eq (base : Nat) (text : Text) : numberText base text = textValue base text := by
  rw [numberText, textValue, Nat.ofDigits_eq_foldr, List.foldr_map, List.foldr_reverse]
  congr 1
  funext value c
  rw [Nat.cast_id, Nat.mul_comm, Nat.add_comm]

@[simp] theorem numberText_toText (word : Nat) : numberText 16 (toText 16 word) = word := by
  rw [numberText_eq, textValue_toText (by decide) (by decide)]

theorem hexLower_toText (word : Nat) : (toText 16 word).all hexLower = true := by
  have each : ∀ d : Fin 16, hexLower (digitText d) = true := by decide
  unfold toText
  split
  · rfl
  · rw [List.all_reverse, List.all_map, List.all_eq_true]
    intro digit member
    exact each ⟨digit, Nat.digits_lt_base (by decide) member⟩

theorem toText_ne_nil {base : Nat} (value : Nat) : toText base value ≠ [] := by
  unfold toText
  split
  · exact List.cons_ne_nil _ _
  · next positive =>
    rw [Ne, List.reverse_eq_nil_iff, List.map_eq_nil_iff, Nat.digits_eq_nil_iff_eq_zero]
    exact positive

theorem length_toText {word : Nat} (small : word < 65536) : (toText 16 word).length ≤ 4 := by
  unfold toText
  split
  · exact Nat.le_of_ble_eq_true rfl
  · rw [List.length_reverse, List.length_map]
    exact (Nat.digits_length_le_iff (by decide) word).mpr small

theorem hexLower_small {c : Char} (hex : hexLower c = true) : c.toNat < 128 := by
  simp only [hexLower, Char.isDigit, Bool.or_eq_true, Bool.and_eq_true, decide_eq_true_eq, ge_iff_le] at hex
  rcases hex with ⟨_, upper⟩ | ⟨_, upper⟩
  · exact Nat.lt_of_le_of_lt (UInt32.le_iff_toNat_le.mp upper) (by decide)
  · exact Nat.lt_of_le_of_lt (UInt32.le_iff_toNat_le.mp upper) (by decide)

theorem numberText_lt {text : Text} (hex : text.all hexLower = true) : numberText 16 text < 16 ^ text.length := by
  have small : ∀ n : Fin 128, (!hexLower (Char.ofNat n) || decide (digitValue (Char.ofNat n) < 16)) = true := by decide
  have digits : text.length = (text.reverse.map digitValue).length := by simp
  rw [numberText_eq, textValue, digits]
  refine Nat.ofDigits_lt_base_pow_length (by decide) fun digit member => ?_
  obtain ⟨c, there, rfl⟩ := List.mem_map.mp member
  have digit : hexLower c = true := List.all_eq_true.mp hex c (List.mem_reverse.mp there)
  have one := ascii_forall (P := fun c => !hexLower c || decide (digitValue c < 16)) small (hexLower_small digit)
  simpa [digit] using one

theorem hexLower_ne {c : Char} (hex : hexLower c = true) : c ≠ ':' ∧ c ≠ '.' := by
  constructor <;> rintro rfl <;> exact absurd hex (by decide)

end Numbers

section Colons

variable {text part rest : Text} {parts : List Text}

/-- No two colons stand together, and none is at the end. -/
def Solid : Text → Prop
  | [] => True
  | [c] => c ≠ ':'
  | c :: d :: rest => ¬ (c = ':' ∧ d = ':') ∧ Solid (d :: rest)

theorem Solid.cons {c : Char} (solid : Solid text) (apart : c ≠ ':') : Solid (c :: text) := by
  cases text with
  | nil => exact apart
  | cons d rest => exact ⟨fun both => apart both.1, solid⟩

theorem Solid.append (solid : Solid text) (absent : ':' ∉ part) : Solid (part ++ text) := by
  induction part with
  | nil => exact solid
  | cons c rest ih =>
    have apart : c ≠ ':' ∧ ':' ∉ rest := by simpa [eq_comm] using absent
    exact (ih apart.2).cons apart.1

theorem solid_joinText (each : ∀ part ∈ parts, part ≠ [] ∧ ':' ∉ part) : Solid (joinText ':' parts) := by
  induction parts with
  | nil => trivial
  | cons part rest ih =>
    have here := each part List.mem_cons_self
    have later := ih fun other member => each other (List.mem_cons_of_mem _ member)
    cases rest with
    | nil =>
      have solid : Solid (part ++ []) := Solid.append trivial here.2
      rwa [List.append_nil] at solid
    | cons second rest =>
      obtain ⟨some, absent⟩ := each second (List.mem_cons_of_mem _ List.mem_cons_self)
      obtain ⟨c, front, rfl⟩ := List.exists_cons_of_ne_nil some
      have apart : c ≠ ':' := fun same => absent (same ▸ List.mem_cons_self)
      suffices tail : Solid (':' :: joinText ':' ((c :: front) :: rest)) from tail.append here.2
      obtain ⟨after, shape⟩ : ∃ after, joinText ':' ((c :: front) :: rest) = c :: after := by
        cases rest with
        | nil => exact ⟨front, rfl⟩
        | cons third rest => exact ⟨_, rfl⟩
      rw [shape] at later ⊢
      exact ⟨fun both => apart both.2, later⟩

theorem splitDoubleColon_cons {c : Char} (rest : Text) (single : ¬ (c = ':' ∧ rest.head? = some ':')) :
    splitDoubleColon (c :: rest) = match splitDoubleColon rest with
      | [] => [[c]]
      | part :: parts => (c :: part) :: parts := by
  rw [splitDoubleColon.eq_def]
  split
  · next same =>
    obtain ⟨rfl, rfl⟩ := List.cons.inj same
    exact absurd ⟨rfl, rfl⟩ single
  · next same =>
    obtain ⟨rfl, rfl⟩ := List.cons.inj same
    rfl
  · next same => cases same

theorem splitDoubleColon_solid (solid : Solid text) : splitDoubleColon text = [text] := by
  induction text with
  | nil => rfl
  | cons c rest ih =>
    cases rest with
    | nil =>
      rw [splitDoubleColon_cons [] fun both => by cases both.2]
      rfl
    | cons d rest =>
      rw [splitDoubleColon_cons (d :: rest) fun both => solid.1 ⟨both.1, Option.some.inj both.2⟩, ih solid.2]

theorem splitDoubleColon_append (solid : Solid text) :
    splitDoubleColon (text ++ ':' :: ':' :: rest) = text :: splitDoubleColon rest := by
  induction text with
  | nil => rfl
  | cons c after ih =>
    cases after with
    | nil =>
      rw [List.cons_append, splitDoubleColon_cons _ fun both => solid both.1]
      rfl
    | cons d after =>
      have later : splitDoubleColon (d :: (after ++ ':' :: ':' :: rest)) = (d :: after) :: splitDoubleColon rest :=
        ih solid.2
      have single : ¬ (c = ':' ∧ (d :: (after ++ ':' :: ':' :: rest)).head? = some ':') := fun both =>
        solid.1 ⟨both.1, Option.some.inj both.2⟩
      rw [List.cons_append, List.cons_append, splitDoubleColon_cons _ single, later]

end Colons

section Words

variable {words : List Nat}

/-- Words of 16 bits. -/
def SmallWords (words : List Nat) : Prop := ∀ word ∈ words, word < 65536

theorem colonFree_toText (word : Nat) : toText 16 word ≠ [] ∧ ':' ∉ toText 16 word :=
  ⟨toText_ne_nil word, fun there => (hexLower_ne (List.all_eq_true.mp (hexLower_toText word) _ there)).1 rfl⟩

theorem colonFree_texts {part : Text} (member : part ∈ words.map (toText 16)) : part ≠ [] ∧ ':' ∉ part := by
  obtain ⟨word, _, rfl⟩ := List.mem_map.mp member
  exact colonFree_toText word

theorem ipv4?_of_not_mem {text : Text} (absent : '.' ∉ text) : ipv4? text = none := by
  rw [ipv4?, splitText_of_not_mem absent]
  exact if_neg (by simp)

theorem hexDigit_of_hexLower {part : Text} (hex : part.all hexLower = true) : part.all hexDigit = true := by
  rw [List.all_eq_true] at hex ⊢
  intro c member
  rw [hexDigit, hex c member, Bool.true_or]

theorem mapM_ipv6Group {parts : List Text}
    (each : ∀ part ∈ parts, part ≠ [] ∧ part.length ≤ 4 ∧ part.all hexLower = true) :
    parts.mapM ipv6Group = some (parts.map (numberText 16)) := by
  induction parts with
  | nil => rfl
  | cons part rest ih =>
    obtain ⟨some, short, hex⟩ := each part List.mem_cons_self
    have here : ipv6Group part = Option.some (numberText 16 part) :=
      if_pos ⟨some, short, hexDigit_of_hexLower hex⟩
    rw [List.mapM_cons, here, ih fun other member => each other (List.mem_cons_of_mem _ member)]
    rfl

/-- Hexadecimal groups are read as their numbers. -/
theorem ipv6Groups_joinText (last : Bool) {parts : List Text}
    (each : ∀ part ∈ parts, part ≠ [] ∧ part.length ≤ 4 ∧ part.all hexLower = true) :
    ipv6Groups last (joinText ':' parts) = some (parts.map (numberText 16)) := by
  have free : ∀ part ∈ parts, ':' ∉ part ∧ '.' ∉ part := by
    intro part member
    have hex := List.all_eq_true.mp (each part member).2.2
    exact ⟨fun there => (hexLower_ne (hex _ there)).1 rfl, fun there => (hexLower_ne (hex _ there)).2 rfl⟩
  cases parts with
  | nil => rfl
  | cons part rest =>
    have split := splitText_joinText ':' (List.cons_ne_nil part rest) fun other member => (free other member).1
    have some : joinText ':' (part :: rest) ≠ [] := by
      intro none
      rw [none] at split
      have whole := (each part List.mem_cons_self).1
      rw [splitText, List.cons.injEq] at split
      exact whole split.1.symm
    obtain ⟨final, before, reversed⟩ := List.exists_cons_of_ne_nil
      (show (part :: rest).reverse ≠ [] by simp)
    have dotted : ipv4? final = none := by
      apply ipv4?_of_not_mem
      exact (free final (List.mem_reverse.mp (reversed ▸ List.mem_cons_self))).2
    rw [ipv6Groups, if_neg some, split, reversed]
    dsimp only
    have neither : (if last = true then ipv4? final else none) = none := by
      rw [dotted]
      split <;> rfl
    rw [neither]
    exact mapM_ipv6Group each

theorem longestZeros_spec (words : List Nat) :
    (longestZeros words).1 + (longestZeros words).2 ≤ words.length ∧
      (words.drop (longestZeros words).1).take (longestZeros words).2 = List.replicate (longestZeros words).2 0 := by
  induction words with
  | nil => exact ⟨Nat.le_refl _, rfl⟩
  | cons word words ih =>
    rw [longestZeros]
    split
    · have prefixed : (word :: words).take (zeroRun (word :: words)) = (word :: words).takeWhile (· = 0) :=
        List.prefix_iff_eq_take.mp (List.takeWhile_prefix _) |>.symm
      refine ⟨?_, ?_⟩
      · rw [Nat.zero_add]
        exact (List.takeWhile_prefix _).length_le
      · rw [List.drop_zero, prefixed, List.eq_replicate_iff]
        refine ⟨rfl, fun other member => ?_⟩
        exact of_decide_eq_true (List.all_eq_true.mp List.all_takeWhile other member)
    · dsimp only
      rw [List.length_cons, List.drop_succ_cons]
      exact ⟨by omega, ih.2⟩

/-- The words around the compressed zeros, which are at least two. -/
theorem words_around (words : List Nat) :
    words = words.take (longestZeros words).1 ++ List.replicate (longestZeros words).2 0 ++
      words.drop ((longestZeros words).1 + (longestZeros words).2) := by
  obtain ⟨_, zeros⟩ := longestZeros_spec words
  rw [← zeros, List.append_assoc, ← List.drop_drop, List.take_append_drop, List.take_append_drop]

theorem groups_of_small (words : List Nat) (small : SmallWords words) :
    ∀ part ∈ words.map (toText 16), part ≠ [] ∧ part.length ≤ 4 ∧ part.all hexLower = true := by
  intro part member
  obtain ⟨word, there, rfl⟩ := List.mem_map.mp member
  exact ⟨toText_ne_nil word, length_toText (small word there), hexLower_toText word⟩

theorem numbers_of_texts (words : List Nat) : (words.map (toText 16)).map (numberText 16) = words := by
  rw [List.map_map]
  refine (List.map_congr_left fun word _ => ?_).trans (List.map_id _)
  exact numberText_toText word

theorem split_ipv6Hostname (compressed : 2 ≤ (longestZeros words).2) : splitDoubleColon (ipv6Hostname words) =
    [joinText ':' ((words.take (longestZeros words).1).map (toText 16)),
      joinText ':' ((words.drop ((longestZeros words).1 + (longestZeros words).2)).map (toText 16))] := by
  have shape : ipv6Hostname words =
      joinText ':' ((words.take (longestZeros words).1).map (toText 16)) ++ ':' :: ':' ::
        joinText ':' ((words.drop ((longestZeros words).1 + (longestZeros words).2)).map (toText 16)) := if_pos compressed
  rw [shape, splitDoubleColon_append (solid_joinText fun part member => colonFree_texts member),
    splitDoubleColon_solid (solid_joinText fun part member => colonFree_texts member)]

theorem ipv6Hostname_whole (whole : ¬ 2 ≤ (longestZeros words).2) :
    ipv6Hostname words = joinText ':' (words.map (toText 16)) := if_neg whole

theorem ipv6?_ipv6Hostname (eight : words.length = 8) (small : SmallWords words) :
    ipv6? (ipv6Hostname words) = some words := by
  by_cases compressed : 2 ≤ (longestZeros words).2
  · obtain ⟨bound, zeros⟩ := longestZeros_spec words
    have head := ipv6Groups_joinText false (groups_of_small (words.take (longestZeros words).1)
      fun word member => small word (List.mem_of_mem_take member))
    have tail := ipv6Groups_joinText true (groups_of_small (words.drop ((longestZeros words).1 + (longestZeros words).2))
      fun word member => small word (List.mem_of_mem_drop member))
    rw [numbers_of_texts] at head tail
    rw [ipv6?, split_ipv6Hostname compressed]
    dsimp only
    rw [head, tail]
    have sizes : 8 - (words.take (longestZeros words).1).length -
        (words.drop ((longestZeros words).1 + (longestZeros words).2)).length = (longestZeros words).2 := by
      rw [List.length_take, List.length_drop]
      omega
    dsimp only
    rw [sizes, if_pos (by rw [List.length_take, List.length_drop]; omega), ← words_around]
  · have groups := ipv6Groups_joinText true (groups_of_small words small)
    rw [numbers_of_texts] at groups
    rw [ipv6?, ipv6Hostname_whole compressed,
      splitDoubleColon_solid (solid_joinText fun part member => colonFree_texts member)]
    dsimp only
    rw [groups]
    exact if_pos (decide_eq_true eight)

/-- The words of a canonical text are the texts of those it was written from. -/
theorem canonicalWords_texts (eight : words.length = 8) : canonicalWords (ipv6Hostname words) = words.map (toText 16) := by
  have sides : ∀ words : List Nat, (if joinText ':' (words.map (toText 16)) = [] then []
      else splitText ':' (joinText ':' (words.map (toText 16)))) = words.map (toText 16) := by
    intro words
    cases words with
    | nil => rfl
    | cons word rest =>
      have split : splitText ':' (joinText ':' ((word :: rest).map (toText 16))) = (word :: rest).map (toText 16) :=
        splitText_joinText ':' (List.cons_ne_nil _ _) fun part member => (colonFree_texts member).2
      rw [split, if_neg]
      intro none
      rw [none] at split
      exact toText_ne_nil word (List.cons.inj split).1.symm
  by_cases compressed : 2 ≤ (longestZeros words).2
  · obtain ⟨bound, zeros⟩ := longestZeros_spec words
    have zero : ['0'] = toText 16 0 := rfl
    rw [canonicalWords, split_ipv6Hostname compressed]
    dsimp only
    rw [sides, sides, List.length_map, List.length_map, zero, ← List.map_replicate, ← List.map_append, ← List.map_append]
    have sizes : 8 - (words.take (longestZeros words).1).length -
        (words.drop ((longestZeros words).1 + (longestZeros words).2)).length = (longestZeros words).2 := by
      rw [List.length_take, List.length_drop]
      omega
    rw [sizes, ← words_around]
  · rw [canonicalWords, ipv6Hostname_whole compressed,
      splitDoubleColon_solid (solid_joinText fun part member => colonFree_texts member)]
    dsimp only
    exact splitText_joinText ':' (by simp [List.ne_nil_of_length_eq_add_one eight]) fun part member =>
      (colonFree_texts member).2

/-- The words of a canonical text are those it was written from. -/
theorem canonicalWords_ipv6Hostname (eight : words.length = 8) :
    (canonicalWords (ipv6Hostname words)).map (numberText 16) = words := by
  rw [canonicalWords_texts eight, numbers_of_texts]

end Words

section Encoded

variable {label hostname domain address encoded : Text} {checked : PrivateAddress}

/-- The octets of the address that a label encodes. -/
def encodedAddress (label : Text) : Octets :=
  if ipv4Label label then (splitText '-' label).map fun part => UInt8.ofNat (numberText 10 part)
  else (splitText '-' label).flatMap fun part => u16 (numberText 16 part)

theorem not_mem_joinText (separator : Char) {c : Char} {parts : List Text} (apart : c ≠ separator)
    (absent : ∀ part ∈ parts, c ∉ part) : c ∉ joinText separator parts := by
  induction parts with
  | nil => exact List.not_mem_nil
  | cons part rest ih =>
    cases rest with
    | nil => exact absent part List.mem_cons_self
    | cons second rest =>
      rw [joinText, List.mem_append, List.mem_cons]
      · rintro (here | same | later)
        · exact absent part List.mem_cons_self here
        · exact apart same
        · exact ih (fun other member => absent other (List.mem_cons_of_mem _ member)) later
      · exact List.cons_ne_nil _ _

theorem mem_joinText {separator c : Char} {parts : List Text} (member : c ∈ joinText separator parts) :
    c = separator ∨ ∃ part ∈ parts, c ∈ part := by
  by_contra neither
  push Not at neither
  exact not_mem_joinText separator neither.1 neither.2 member

theorem not_mem_ipv6Hostname {c : Char} (colon : c ≠ ':') (other : hexLower c = false) (words : List Nat) :
    c ∉ ipv6Hostname words := by
  have side : ∀ words : List Nat, c ∉ joinText ':' (words.map (toText 16)) := by
    intro words
    refine not_mem_joinText _ colon fun part member there => ?_
    obtain ⟨word, _, rfl⟩ := List.mem_map.mp member
    exact Bool.false_ne_true (other.symm.trans (List.all_eq_true.mp (hexLower_toText word) _ there))
  unfold ipv6Hostname
  dsimp only
  split
  · rw [List.mem_append, List.mem_cons, List.mem_cons]
    rintro (left | never | never | right)
    · exact side _ left
    · exact colon never
    · exact colon never
    · exact side _ right
  · exact side words

theorem isDigit_ne {c : Char} (digit : c.isDigit = true) : c ≠ ':' ∧ c ≠ '.' ∧ c ≠ '-' := by
  refine ⟨?_, ?_, ?_⟩ <;> rintro rfl <;> exact absurd digit (by decide)

theorem ipv4Label_parts (four : ipv4Label label = true) :
    (splitText '-' label).length = 4 ∧ ∀ part ∈ splitText '-' label, part ≠ [] ∧ part.all Char.isDigit = true := by
  rw [ipv4Label, Bool.and_eq_true, decide_eq_true_eq, List.all_eq_true] at four
  refine ⟨four.1, fun part member => ?_⟩
  have here := four.2 part member
  rwa [Bool.and_eq_true, decide_eq_true_eq] at here

theorem ipv6Label_parts (six : ipv6Label label = true) :
    (splitText '-' label).length = 8 ∧ ∀ part ∈ splitText '-' label, part.length = 4 ∧ part.all hexLower = true := by
  rw [ipv6Label, Bool.and_eq_true, decide_eq_true_eq, List.all_eq_true] at six
  refine ⟨six.1, fun part member => ?_⟩
  have here := six.2 part member
  rwa [Bool.and_eq_true, decide_eq_true_eq] at here

theorem ipv6?_of_not_mem (absent : ':' ∉ encoded) (four : ipv4? encoded = none) : ipv6? encoded = none := by
  have solid : Solid (encoded ++ []) := Solid.append trivial absent
  rw [List.append_nil] at solid
  rw [ipv6?, splitDoubleColon_solid solid]
  dsimp only
  rw [ipv6Groups]
  split
  · rfl
  · rw [splitText_of_not_mem absent]
    simp only [List.reverse_singleton, ↓reduceIte, four]
    cases group : ipv6Group encoded with
    | none => simp [group]
    | some word => simp [group]

/-- An accepted IPv4 label gives its four numbers. -/
theorem privateAddress_ipv4 (four : ipv4Label label = true)
    (accepted : privateAddress (joinText '.' (splitText '-' label)) = .ok checked) :
    isIP checked.address = 4 ∧
      (splitText '.' checked.address).map (fun part => UInt8.ofNat (numberText 10 part)) = encodedAddress label := by
  obtain ⟨count, parts⟩ := ipv4Label_parts four
  have dotFree : ∀ part ∈ splitText '-' label, '.' ∉ part := fun part member there =>
    (isDigit_ne (List.all_eq_true.mp (parts part member).2 _ there)).2.1 rfl
  have colonFree : ':' ∉ joinText '.' (splitText '-' label) := not_mem_joinText _ (by decide) fun part member there =>
    (isDigit_ne (List.all_eq_true.mp (parts part member).2 _ there)).1 rfl
  have split := splitText_joinText '.' (splitText_ne_nil '-' label) dotFree
  unfold privateAddress at accepted
  split at accepted
  · cases accepted
  · split at accepted
    · next octets four' =>
      split at accepted
      · cases accepted
        refine ⟨if_pos (by rw [four']; rfl), ?_⟩
        rw [split, encodedAddress, if_pos four]
      · cases accepted
    · next words none six =>
      rw [ipv6?_of_not_mem colonFree none] at six
      cases six
    · cases accepted

theorem ipv6?_label (six : ipv6Label label = true) :
    '.' ∉ joinText ':' (splitText '-' label) ∧
      ipv6? (joinText ':' (splitText '-' label)) = some ((splitText '-' label).map (numberText 16)) ∧
      ((splitText '-' label).map (numberText 16)).length = 8 ∧ SmallWords ((splitText '-' label).map (numberText 16)) := by
  obtain ⟨count, parts⟩ := ipv6Label_parts six
  have hex := fun part member => List.all_eq_true.mp (parts part member).2
  have groups : ∀ part ∈ splitText '-' label, part ≠ [] ∧ part.length ≤ 4 ∧ part.all hexLower = true := by
    intro part member
    obtain ⟨length, lower⟩ := parts part member
    exact ⟨List.ne_nil_of_length_eq_add_one length, length.le, lower⟩
  have solid : Solid (joinText ':' (splitText '-' label)) := solid_joinText fun part member =>
    ⟨(groups part member).1, fun there => (hexLower_ne (hex part member _ there)).1 rfl⟩
  have eight : ((splitText '-' label).map (numberText 16)).length = 8 := by rw [List.length_map, count]
  refine ⟨not_mem_joinText _ (by decide) fun part member there => (hexLower_ne (hex part member _ there)).2 rfl, ?_, eight, ?_⟩
  · rw [ipv6?, splitDoubleColon_solid solid]
    dsimp only
    rw [ipv6Groups_joinText true groups]
    exact if_pos (decide_eq_true eight)
  · intro word member
    obtain ⟨part, there, rfl⟩ := List.mem_map.mp member
    have bound := numberText_lt (parts part there).2
    rwa [(parts part there).1] at bound

/-- An accepted IPv6 label gives its eight words. -/
theorem privateAddress_ipv6 (neither : ipv4Label label = false) (six : ipv6Label label = true)
    (accepted : privateAddress (joinText ':' (splitText '-' label)) = .ok checked) :
    isIP checked.address = 6 ∧ ipv6Bytes checked.address = encodedAddress label := by
  obtain ⟨dotFree, read, eight, small⟩ := ipv6?_label six
  unfold privateAddress at accepted
  rw [ipv4?_of_not_mem dotFree, read] at accepted
  dsimp only at accepted
  split at accepted
  · cases accepted
  · split at accepted
    · cases accepted
      have back := ipv6?_ipv6Hostname eight small
      have plain := ipv4?_of_not_mem (not_mem_ipv6Hostname (by decide) rfl ((splitText '-' label).map (numberText 16)))
      refine ⟨?_, ?_⟩
      · rw [isIP, plain, back]
        rfl
      · rw [ipv6Bytes, back]
        dsimp only
        rw [encodedAddress, neither, if_neg Bool.false_ne_true]
        have words := canonicalWords_ipv6Hostname eight
        calc (canonicalWords (ipv6Hostname ((splitText '-' label).map (numberText 16)))).flatMap
              (fun word => u16 (numberText 16 word))
            = ((canonicalWords (ipv6Hostname ((splitText '-' label).map (numberText 16)))).map (numberText 16)).flatMap
              u16 := by rw [List.flatMap_map]
          _ = (splitText '-' label).flatMap fun part => u16 (numberText 16 part) := by
            rw [words, List.flatMap_map]
    · cases accepted

theorem not_mem_addressLabel (shape : ipv4Label label = true ∨ ipv6Label label = true) : '.' ∉ label := by
  have parts : ∀ part ∈ splitText '-' label, '.' ∉ part := by
    rcases shape with four | six
    · intro part member there
      exact (isDigit_ne (List.all_eq_true.mp ((ipv4Label_parts four).2 part member).2 _ there)).2.1 rfl
    · intro part member there
      exact (hexLower_ne (List.all_eq_true.mp ((ipv6Label_parts six).2 part member).2 _ there)).2 rfl
  have whole := not_mem_joinText '-' (by decide) parts
  rwa [joinText_splitText] at whole

variable {toLowerCase : Text → Text}

/-- The address of an accepted name is the one that its label encodes. -/
theorem lanHttpsAddress_octets (accepted : lanHttpsAddress toLowerCase hostname domain = .ok address) :
    ∃ normalized label, normalizeLanHttpsDomain domain = .ok normalized ∧
      toLowerCase hostname = label ++ '.' :: normalized ∧ (ipv4Label label = true ∨ ipv6Label label = true) ∧
      ((isIP address = 4 ∧ ipv4Label label = true ∧
          (splitText '.' address).map (fun part => UInt8.ofNat (numberText 10 part)) = encodedAddress label) ∨
        (isIP address = 6 ∧ ipv6Label label = true ∧ ipv6Bytes address = encodedAddress label)) := by
  unfold lanHttpsAddress at accepted
  simp only [bind_eq_ok, demand_eq_ok] at accepted
  obtain ⟨normalized, same, -, within, value, label, checked, checks, canonical, -, -, -, done⟩ := accepted
  obtain rfl : checked.address = address := Except.ok.inj done
  obtain ⟨front, whole⟩ := within
  have cut : (toLowerCase hostname).take ((toLowerCase hostname).length - ('.' :: normalized).length) = front := by
    rw [← whole]
    simp
  rw [cut, labelAddress] at label
  by_cases four : ipv4Label front = true
  · rw [if_pos four] at label
    cases label
    obtain ⟨kind, octets⟩ := privateAddress_ipv4 four checks
    exact ⟨normalized, front, same, whole.symm, .inl four, .inl ⟨kind, four, octets⟩⟩
  · rw [if_neg four] at label
    by_cases six : ipv6Label front = true
    · rw [if_pos six] at label
      cases label
      obtain ⟨kind, octets⟩ := privateAddress_ipv6 (Bool.eq_false_iff.mpr four) six checks
      exact ⟨normalized, front, same, whole.symm, .inr six, .inr ⟨kind, six, octets⟩⟩
    · rw [if_neg six] at label
      cases label

end Encoded

end LatexRenderer
