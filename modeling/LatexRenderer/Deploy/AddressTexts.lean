import Mathlib.Data.List.TakeWhile
import LatexRenderer.Deploy.DnsAddresses
import LatexRenderer.Model.Deploy.IngressReview

/-! # What texts of addresses are read as

An IPv4 text is four octets and an IPv6 text is eight words, of which the first is the number of the digits before the
first colon. An address as a number is made of them.
-/

namespace LatexRenderer

open Machine

section Groups

variable {value part side : Text} {parts : List Text} {words octets : List Nat}

/-- The digits of an IPv6 text before its first colon. -/
def firstGroup (value : Text) : Text := value.takeWhile fun c => c != ':'

theorem firstGroup_cons {c : Char} (apart : c ≠ ':') (rest : Text) : firstGroup (c :: rest) = c :: firstGroup rest := by
  exact List.takeWhile_cons_of_pos (p := fun c => c != ':') (bne_iff_ne.mpr apart)

/-- The first part of a text begins where the text does. -/
theorem splitText_head (value : Text) : ∃ rest, splitText ':' value = firstGroup value :: rest := by
  induction value with
  | nil => exact ⟨[], rfl⟩
  | cons c after ih =>
    rw [splitText]
    split
    · next same =>
      subst same
      exact ⟨splitText ':' after, rfl⟩
    · next apart =>
      obtain ⟨rest, shape⟩ := ih
      rw [shape, firstGroup_cons apart]
      exact ⟨rest, rfl⟩

theorem splitDoubleColon_ne_nil (text : Text) : splitDoubleColon text ≠ [] := by
  rw [splitDoubleColon.eq_def]
  split
  · exact List.cons_ne_nil _ _
  · split <;> exact List.cons_ne_nil _ _
  · exact List.cons_ne_nil _ _

/-- So does the first side of a double colon, which is the whole text when there is no other. -/
theorem splitDoubleColon_head (value : Text) : ∃ side rest, splitDoubleColon value = side :: rest ∧
    firstGroup side = firstGroup value ∧ (rest = [] → side = value) := by
  induction value with
  | nil => exact ⟨[], [], rfl, rfl, fun _ => rfl⟩
  | cons c after ih =>
    by_cases double : c = ':' ∧ after.head? = some ':'
    · obtain ⟨rfl, second⟩ := double
      obtain ⟨later, rfl⟩ := List.head?_eq_some_iff.mp second
      exact ⟨[], splitDoubleColon later, rfl, rfl, fun none => absurd none (splitDoubleColon_ne_nil later)⟩
    · obtain ⟨side, rest, shape, same, whole⟩ := ih
      refine ⟨c :: side, rest, by rw [splitDoubleColon_cons after double, shape], ?_, fun none => by rw [whole none]⟩
      by_cases colon : c = ':'
      · subst colon
        rfl
      · rw [firstGroup_cons colon, firstGroup_cons colon, same]

/-- A hexadecimal group: one to four digits. -/
structure HexGroup (part : Text) : Prop where
  nonempty : part ≠ []
  short : part.length ≤ 4
  digits : part.all hexDigit = true

theorem ipv6Group_eq_some {word : Nat} (read : ipv6Group part = some word) : HexGroup part ∧ word = numberText 16 part := by
  unfold ipv6Group at read
  split at read
  · next group => exact ⟨⟨group.1, group.2.1, group.2.2⟩, (Option.some.inj read).symm⟩
  · cases read

theorem hexDigit_small {c : Char} (hex : hexDigit c = true) : c.toNat < 128 := by
  rw [hexDigit, Bool.or_eq_true] at hex
  rcases hex with lower | upper
  · exact hexLower_small lower
  · simp only [Bool.and_eq_true, decide_eq_true_eq] at upper
    exact Nat.lt_of_le_of_lt (UInt32.le_iff_toNat_le.mp upper.2) (by decide)

theorem digitValue_lt {c : Char} (hex : hexDigit c = true) : digitValue c < 16 := by
  have small : ∀ n : Fin 128, (!hexDigit (Char.ofNat n) || decide (digitValue (Char.ofNat n) < 16)) = true := by decide
  have one := ascii_forall (P := fun c => !hexDigit c || decide (digitValue c < 16)) small (hexDigit_small hex)
  simpa [hex] using one

theorem HexGroup.lt (group : HexGroup part) : numberText 16 part < 65536 := by
  have digits : part.length = (part.reverse.map digitValue).length := by simp
  have bound : numberText 16 part < 16 ^ part.length := by
    rw [numberText_eq, textValue, digits]
    refine Nat.ofDigits_lt_base_pow_length (by decide) fun digit member => ?_
    obtain ⟨c, there, rfl⟩ := List.mem_map.mp member
    exact digitValue_lt (List.all_eq_true.mp group.digits c (List.mem_reverse.mp there))
  exact Nat.lt_of_lt_of_le bound (Nat.pow_le_pow_right (by decide) group.short)

theorem ipv6Group_lt {word : Nat} (read : ipv6Group part = some word) : word < 65536 := by
  obtain ⟨group, rfl⟩ := ipv6Group_eq_some read
  exact group.lt

theorem mapM_small (read : parts.mapM ipv6Group = some words) : SmallWords words ∧ words.length = parts.length := by
  induction parts generalizing words with
  | nil =>
    cases read
    exact ⟨fun word member => (by cases member), rfl⟩
  | cons part rest ih =>
    rw [List.mapM_cons] at read
    obtain ⟨word, first, read⟩ := Option.bind_eq_some_iff.mp read
    obtain ⟨later, others, read⟩ := Option.bind_eq_some_iff.mp read
    cases read
    obtain ⟨small, length⟩ := ih others
    refine ⟨fun other member => ?_, by rw [List.length_cons, List.length_cons, length]⟩
    rcases List.mem_cons.mp member with rfl | later
    · exact ipv6Group_lt first
    · exact small other later

theorem ipv4Octet_eq_some {octet : Nat} (read : ipv4Octet part = some octet) :
    part ≠ [] ∧ part.all Char.isDigit = true ∧ octet = numberText 10 part ∧ octet ≤ 255 := by
  unfold ipv4Octet at read
  split at read
  · next group =>
    cases read
    exact ⟨group.1, group.2.1, rfl, group.2.2.2.2⟩
  · cases read

/-- An IPv4 text: four octets, the numbers of its parts. -/
theorem ipv4?_eq_some (read : ipv4? value = some octets) :
    octets = (splitText '.' value).map (numberText 10) ∧ octets.length = 4 ∧ (∀ octet ∈ octets, octet < 256) ∧
      ∀ part ∈ splitText '.' value, part ≠ [] ∧ part.all Char.isDigit = true := by
  unfold ipv4? at read
  split at read
  · next count =>
    have each : ∀ (parts : List Text) (octets : List Nat), parts.mapM ipv4Octet = some octets →
        octets = parts.map (numberText 10) ∧ (∀ octet ∈ octets, octet < 256) ∧
          ∀ part ∈ parts, part ≠ [] ∧ part.all Char.isDigit = true := by
      intro parts
      induction parts with
      | nil =>
        intro octets read
        cases read
        exact ⟨rfl, fun octet member => (by cases member), fun part member => (by cases member)⟩
      | cons part rest ih =>
        intro octets read
        rw [List.mapM_cons] at read
        obtain ⟨octet, first, read⟩ := Option.bind_eq_some_iff.mp read
        obtain ⟨later, others, read⟩ := Option.bind_eq_some_iff.mp read
        cases read
        obtain ⟨some, digits, rfl, bound⟩ := ipv4Octet_eq_some first
        obtain ⟨rfl, small, parts⟩ := ih later others
        refine ⟨rfl, fun octet member => ?_, List.forall_mem_cons.mpr ⟨⟨some, digits⟩, parts⟩⟩
        rcases List.mem_cons.mp member with rfl | later
        · exact Nat.lt_succ_of_le bound
        · exact small octet later
    obtain ⟨rfl, small, digits⟩ := each _ _ read
    exact ⟨rfl, by rw [List.length_map, count], small, digits⟩
  · cases read

/-- The groups of one side are words, and the first of them is that of the first group. -/
theorem ipv6Groups_eq_some {last : Bool} (read : ipv6Groups last side = some words)
    (some : side ≠ []) : SmallWords words ∧ (last = true ∧ ipv4? side ≠ none ∨
      HexGroup (firstGroup side) ∧ ∃ rest, words = numberText 16 (firstGroup side) :: rest) := by
  obtain ⟨parts, shape⟩ := splitText_head side
  have first : ∀ {parts : List Text} {words : List Nat}, (firstGroup side :: parts).mapM ipv6Group = Option.some words →
      HexGroup (firstGroup side) ∧ ∃ rest, words = numberText 16 (firstGroup side) :: rest := by
    intro parts words read
    rw [List.mapM_cons] at read
    obtain ⟨word, here, read⟩ := Option.bind_eq_some_iff.mp read
    obtain ⟨later, others, read⟩ := Option.bind_eq_some_iff.mp read
    cases read
    obtain ⟨group, rfl⟩ := ipv6Group_eq_some here
    exact ⟨group, later, rfl⟩
  rw [ipv6Groups, if_neg some] at read
  split at read
  · cases read
  · next final before reversed =>
    split at read
    · next a b c d dotted =>
      have whole : splitText ':' side = before.reverse ++ [final] := by
        rw [← List.reverse_reverse (splitText ':' side), reversed, List.reverse_cons]
      obtain ⟨front, read', joined⟩ := Option.map_eq_some_iff.mp read
      subst joined
      split at dotted
      · next lasts =>
        obtain ⟨-, -, small, -⟩ := ipv4?_eq_some dotted
        have bounds : a < 256 ∧ b < 256 ∧ c < 256 ∧ d < 256 := by
          refine ⟨small a ?_, small b ?_, small c ?_, small d ?_⟩ <;> simp
        refine ⟨fun word member => ?_, ?_⟩
        · rcases List.mem_append.mp member with front | tail
          · exact (mapM_small read').1 word front
          · rcases List.mem_pair.mp tail with rfl | rfl <;> omega
        · cases reverse : before.reverse with
          | nil =>
            rw [reverse, List.nil_append] at whole
            refine .inl ⟨lasts, ?_⟩
            have same : final = side := by
              have back : joinText ':' (splitText ':' side) = side := joinText_splitText
              rw [whole] at back
              exact back
            rw [← same, dotted]
            exact Option.some_ne_none _
          | cons head others =>
            rw [reverse, List.cons_append, shape] at whole
            obtain ⟨rfl, -⟩ := List.cons.inj whole
            rw [reverse] at read'
            obtain ⟨group, rest, rfl⟩ := first read'
            exact .inr ⟨group, _, rfl⟩
      · cases dotted
    · exact ⟨(mapM_small read).1, .inr (first (shape ▸ read))⟩

theorem ipv6?_eq_some (read : ipv6? value = some words) : words.length = 8 ∧ SmallWords words := by
  have sides : ∀ {last : Bool} {side : Text} {words : List Nat}, ipv6Groups last side = some words → SmallWords words := by
    intro last side words read
    by_cases none : side = []
    · subst none
      cases read
      exact fun word member => (by cases member)
    · exact (ipv6Groups_eq_some read none).1
  unfold ipv6? at read
  split at read
  · obtain ⟨read, eight⟩ := Option.filter_eq_some_iff.mp read
    exact ⟨of_decide_eq_true eight, sides read⟩
  · next left right _ =>
    split at read
    · next head tail front back =>
      split at read
      · next few =>
        cases read
        refine ⟨by simp only [List.length_append, List.length_replicate]; omega, fun word member => ?_⟩
        rcases List.mem_append.mp member with before | after
        · rcases List.mem_append.mp before with first | zero
          · exact sides front word first
          · rw [List.eq_of_mem_replicate zero]
            decide
        · exact sides back word after
      · cases read
    · cases read
  · cases read

/-- The first word of an IPv6 text is the number of its first group. -/
theorem ipv6?_first (read : ipv6? value = some words) (none : ipv4? value = none) (digit : firstGroup value ≠ []) :
    HexGroup (firstGroup value) ∧ ∃ rest, words = numberText 16 (firstGroup value) :: rest := by
  obtain ⟨side, others, shape, same, alone⟩ := splitDoubleColon_head value
  have some : side ≠ [] := by
    rintro rfl
    exact digit same.symm
  unfold ipv6? at read
  rw [shape] at read
  rw [← same]
  split at read
  · next whole only =>
    obtain ⟨rfl, rfl⟩ := List.cons.inj only
    obtain ⟨read, -⟩ := Option.filter_eq_some_iff.mp read
    rcases (ipv6Groups_eq_some read some).2 with ⟨-, dotted⟩ | group
    · exact absurd (alone rfl ▸ none) dotted
    · exact group
  · next left right only =>
    obtain ⟨rfl, -⟩ := List.cons.inj only
    split at read
    · next head tail front back =>
      split at read
      · cases read
        rcases (ipv6Groups_eq_some front some).2 with ⟨never, -⟩ | ⟨group, rest, rfl⟩
        · cases never
        · exact ⟨group, _, rfl⟩
      · cases read
    · cases read
  · cases read

end Groups

section Numbers

variable {value : Text} {words octets : List Nat}

/-- The words of an address in a private IPv6 text: the first two digits, and whether all four are there. -/
theorem firstGroup_private (group : HexGroup (firstGroup value))
    (unique : (value.take 2).map Char.toLower ∈ [['f', 'c'], ['f', 'd']]) :
    ((firstGroup value).length = 4 → 0xfc00 ≤ numberText 16 (firstGroup value) ∧
        numberText 16 (firstGroup value) < 0xfe00) ∧
      ((firstGroup value).length ≠ 4 → numberText 16 (firstGroup value) < 0x1000) := by
  obtain ⟨a, b, rest, rfl, first, second⟩ : ∃ a b rest, value = a :: b :: rest ∧ a.toLower = 'f' ∧
      (b.toLower = 'c' ∨ b.toLower = 'd') := by
    match value, unique with
    | a :: b :: rest, unique =>
      refine ⟨a, b, rest, rfl, ?_⟩
      rcases List.mem_pair.mp unique with same | same
      · obtain ⟨first, tail⟩ := List.cons.inj same
        exact ⟨first, .inl (List.cons.inj tail).1⟩
      · obtain ⟨first, tail⟩ := List.cons.inj same
        exact ⟨first, .inr (List.cons.inj tail).1⟩
    | [_], unique => simp at unique
    | [], unique => simp at unique
  have apart : a ≠ ':' ∧ b ≠ ':' := by
    constructor
    · rintro rfl
      exact absurd first (by decide)
    · rintro rfl
      exact absurd second (by decide)
  rw [firstGroup_cons apart.1, firstGroup_cons apart.2] at group ⊢
  obtain ⟨-, short, digits⟩ := group
  simp only [List.all_cons, Bool.and_eq_true] at digits
  obtain ⟨hexA, hexB, later⟩ := digits
  have letters : ∀ n : Fin 128, ((Char.ofNat n).toLower = 'f' → digitValue (Char.ofNat n) = 15) ∧
      ((Char.ofNat n).toLower = 'c' ∨ (Char.ofNat n).toLower = 'd' → 12 ≤ digitValue (Char.ofNat n) ∧
        digitValue (Char.ofNat n) ≤ 13) := by decide
  have valueA : digitValue a = 15 := of_decide_eq_true
    (ascii_forall (P := fun c => decide (c.toLower = 'f' → digitValue c = 15))
      (fun n => decide_eq_true (letters n).1) (hexDigit_small hexA)) first
  have valueB : 12 ≤ digitValue b ∧ digitValue b ≤ 13 := of_decide_eq_true
    (ascii_forall (P := fun c => decide (c.toLower = 'c' ∨ c.toLower = 'd' → 12 ≤ digitValue c ∧ digitValue c ≤ 13))
      (fun n => decide_eq_true (letters n).2) (hexDigit_small hexB)) second
  rcases shape : firstGroup rest with _ | ⟨c, _ | ⟨d, _ | ⟨e, more⟩⟩⟩
  · simp only [numberText, List.foldl_cons, List.foldl_nil, List.length_cons, List.length_nil]
    omega
  · rw [shape] at later
    have small := digitValue_lt (List.all_eq_true.mp later c List.mem_cons_self)
    simp only [numberText, List.foldl_cons, List.foldl_nil, List.length_cons, List.length_nil]
    omega
  · rw [shape] at later
    have small := digitValue_lt (List.all_eq_true.mp later c List.mem_cons_self)
    have smaller := digitValue_lt (List.all_eq_true.mp later d (List.mem_cons_of_mem _ List.mem_cons_self))
    simp only [numberText, List.foldl_cons, List.foldl_nil, List.length_cons, List.length_nil]
    omega
  · rw [shape] at short
    simp only [List.length_cons] at short
    omega

theorem addressValue_four (zone : '%' ∉ value) (read : ipv4? value = some octets) :
    addressValue value = .ok ⟨.four, joinWords 8 octets⟩ := by
  obtain ⟨rfl, -, small, -⟩ := ipv4?_eq_some read
  rw [addressValue, if_neg zone, read]
  dsimp only
  rw [foldl_shiftLeft_or 8 (numberText 10) fun part member => small _ (List.mem_map_of_mem member)]
  rfl

theorem addressValue_six (zone : '%' ∉ value) (none : ipv4? value = none) (read : ipv6? value = some words) :
    addressValue value = .ok ⟨.six, joinWords 16 words⟩ := by
  obtain ⟨eight, small⟩ := ipv6?_eq_some read
  rw [addressValue, if_neg zone, none, read]
  dsimp only
  rw [canonicalWords_texts eight, foldl_shiftLeft_or 16 (numberText 16) fun part member => ?_,
    numbers_of_texts]
  · rfl
  · obtain ⟨word, listed, rfl⟩ := List.mem_map.mp member
    rw [numberText_toText]
    exact small word listed

theorem addressValue_eq_ok {ip : IngressAddress} (accepted : addressValue value = .ok ip) : '%' ∉ value ∧
    ((∃ octets, ipv4? value = some octets ∧ ip = ⟨.four, joinWords 8 octets⟩) ∨
      ipv4? value = none ∧ ∃ words, ipv6? value = some words ∧ ip = ⟨.six, joinWords 16 words⟩) := by
  by_cases zone : '%' ∈ value
  · rw [addressValue, if_pos zone] at accepted
    cases accepted
  · refine ⟨zone, ?_⟩
    cases four : ipv4? value with
    | some octets =>
      rw [addressValue_four zone four] at accepted
      exact .inl ⟨octets, rfl, (Except.ok.inj accepted).symm⟩
    | none =>
      cases six : ipv6? value with
      | some words =>
        rw [addressValue_six zone four six] at accepted
        exact .inr ⟨rfl, words, rfl, (Except.ok.inj accepted).symm⟩
      | none =>
        rw [addressValue, if_neg zone, four, six] at accepted
        cases accepted

theorem addressValue_lt {ip : IngressAddress} (accepted : addressValue value = .ok ip) : ip.value < 2 ^ ip.family.bits := by
  rcases (addressValue_eq_ok accepted).2 with ⟨octets, read, rfl⟩ | ⟨-, words, read, rfl⟩
  · obtain ⟨-, four, small, -⟩ := ipv4?_eq_some read
    have bound : joinWords 8 octets < 2 ^ (8 * octets.length) := joinWords_lt small
    rwa [four] at bound
  · obtain ⟨eight, small⟩ := ipv6?_eq_some read
    have bound : joinWords 16 words < 2 ^ (16 * words.length) := joinWords_lt small
    rwa [eight] at bound

/-- The private ranges: 10.0.0.0/8, 172.16.0.0/12, 192.168.0.0/16 and fc00::/7. -/
def InPrivateRanges (ip : IngressAddress) : Prop :=
  match ip.family with
  | .four => InPrefix 32 (10 * 2 ^ 24) 8 ip.value ∨ InPrefix 32 (172 * 2 ^ 24 + 16 * 2 ^ 16) 12 ip.value ∨
      InPrefix 32 (192 * 2 ^ 24 + 168 * 2 ^ 16) 16 ip.value
  | .six => InPrefix 128 (0xfc * 2 ^ 120) 7 ip.value

/-- The private octets are those of the private ranges. -/
theorem privateOctets_iff (four : octets.length = 4) (small : ∀ octet ∈ octets, octet < 256) :
    privateOctets octets = true ↔ InPrivateRanges ⟨.four, joinWords 8 octets⟩ := by
  match octets, four with
  | [a, b, c, d], _ =>
    have bounds : a < 256 ∧ b < 256 ∧ c < 256 ∧ d < 256 := by
      refine ⟨small a ?_, small b ?_, small c ?_, small d ?_⟩ <;> simp
    have whole : joinWords 8 [a, b, c, d] = a * 16777216 + b * 65536 + c * 256 + d := by
      simp only [joinWords, List.foldl_cons, List.foldl_nil]
      omega
    simp only [InPrivateRanges, InPrefix, whole, privateOctets, Bool.or_eq_true, Bool.and_eq_true, beq_iff_eq,
      decide_eq_true_eq]
    omega

/-- The first word tells whether an IPv6 address is private. -/
theorem privateWords_iff {word : Nat} {rest : List Nat} (seven : rest.length = 7) (small : SmallWords rest) :
    InPrivateRanges ⟨.six, joinWords 16 (word :: rest)⟩ ↔ 0xfc00 ≤ word ∧ word < 0xfe00 := by
  have first : joinWords 16 (word :: rest) / 2 ^ (16 * rest.length) = word := joinWords_div small
  rw [seven] at first
  have split : joinWords 16 (word :: rest) / 2 ^ (128 - 7) = word / 512 := by
    have power : (2 : Nat) ^ (128 - 7) = 2 ^ (16 * 7) * 512 := by norm_num
    rw [power, ← Nat.div_div_eq_div_mul, first]
  have base : 0xfc * 2 ^ 120 / 2 ^ (128 - 7) = 126 := by norm_num
  show joinWords 16 (word :: rest) / 2 ^ (128 - 7) = 0xfc * 2 ^ 120 / 2 ^ (128 - 7) ↔ _
  rw [split, base]
  omega

end Numbers

end LatexRenderer
