import LatexRenderer.Deploy.AddressTexts
import LatexRenderer.Deploy.DnsRecords

/-! # Names of LAN addresses are read back

The label of an IPv6 address has the four digits of every word. The check of a private address looks at the first two
characters of its text instead, so a first group of less than four digits passes it with a word outside `fc00::/7`. All
other names encode their addresses faithfully.
-/

namespace LatexRenderer

open Machine

section Words

variable {words : List Nat} {part : Text} {word : Nat}

/-- The four digits of a word. -/
def wordText (word : Nat) : Text := padStart (toText 16 word)

/-- The label of eight words. -/
def wordsLabel (words : List Nat) : Text := joinText '-' (words.map wordText)

theorem numberText_zeros (count : Nat) (text : Text) :
    numberText 16 (List.replicate count '0' ++ text) = numberText 16 text := by
  induction count with
  | zero => rfl
  | succ count ih =>
    rw [List.replicate_succ, List.cons_append]
    exact ih

theorem wordText_spec (small : word < 65536) :
    (wordText word).length = 4 ∧ (wordText word).all hexLower = true ∧ numberText 16 (wordText word) = word := by
  have short := length_toText small
  refine ⟨?_, ?_, ?_⟩
  · rw [wordText, padStart, List.length_append, List.length_replicate]
    omega
  · rw [wordText, padStart, List.all_append, hexLower_toText, Bool.and_true, List.all_eq_true]
    intro c member
    rw [List.eq_of_mem_replicate member]
    rfl
  · rw [wordText, padStart, numberText_zeros, numberText_toText]

theorem hexLower_ne_hyphen {c : Char} (hex : hexLower c = true) : c ≠ '-' := by
  rintro rfl
  exact absurd hex (by decide)

theorem splitText_wordsLabel (some : words ≠ []) (small : SmallWords words) :
    splitText '-' (wordsLabel words) = words.map wordText := by
  apply splitText_joinText
  · simpa using some
  · intro part member there
    obtain ⟨word, listed, rfl⟩ := List.mem_map.mp member
    exact hexLower_ne_hyphen (List.all_eq_true.mp (wordText_spec (small word listed)).2.1 _ there) rfl

theorem numbers_of_wordTexts (small : SmallWords words) : (words.map wordText).map (numberText 16) = words := by
  rw [List.map_map]
  refine (List.map_congr_left fun word member => ?_).trans (List.map_id _)
  exact (wordText_spec (small word member)).2.2

/-- The label of eight words is one of an IPv6 address, and of no other. -/
theorem ipv6Label_wordsLabel (eight : words.length = 8) (small : SmallWords words) :
    ipv4Label (wordsLabel words) = false ∧ ipv6Label (wordsLabel words) = true := by
  have split := splitText_wordsLabel (List.ne_nil_of_length_eq_add_one eight) small
  constructor
  · rw [ipv4Label, split, List.length_map, eight]
    rfl
  · rw [ipv6Label, split, List.length_map, eight, decide_eq_true rfl, Bool.true_and, List.all_eq_true]
    intro part member
    obtain ⟨word, listed, rfl⟩ := List.mem_map.mp member
    obtain ⟨length, hex, -⟩ := wordText_spec (small word listed)
    rw [length, hex]
    rfl

/-- The first two digits of a whole word tell whether it is in `fc00::/7`. -/
theorem take_private (four : part.length = 4) (hex : part.all hexLower = true) :
    (part.take 2).map Char.toLower ∈ [['f', 'c'], ['f', 'd']] ↔
      0xfc00 ≤ numberText 16 part ∧ numberText 16 part < 0xfe00 := by
  match part, four with
  | [a, b, c, d], _ =>
    have digits := List.all_eq_true.mp hex
    have letters : ∀ n : Fin 128, hexLower (Char.ofNat n) = true → ((Char.ofNat n).toLower = 'f' ↔
        digitValue (Char.ofNat n) = 15) ∧ ((Char.ofNat n).toLower = 'c' ↔ digitValue (Char.ofNat n) = 12) ∧
          ((Char.ofNat n).toLower = 'd' ↔ digitValue (Char.ofNat n) = 13) := by decide
    have each : ∀ c : Char, hexLower c = true → (c.toLower = 'f' ↔ digitValue c = 15) ∧
        (c.toLower = 'c' ↔ digitValue c = 12) ∧ (c.toLower = 'd' ↔ digitValue c = 13) := fun c hex =>
      of_decide_eq_true (ascii_forall (P := fun c => decide (hexLower c = true → (c.toLower = 'f' ↔ digitValue c = 15) ∧
        (c.toLower = 'c' ↔ digitValue c = 12) ∧ (c.toLower = 'd' ↔ digitValue c = 13)))
        (fun n => decide_eq_true (letters n)) (hexLower_small hex)) hex
    have bound : ∀ digit ∈ [a, b, c, d], digitValue digit < 16 := fun digit member =>
      digitValue_lt (List.all_eq_true.mp (hexDigit_of_hexLower hex) digit member)
    obtain ⟨first, -, -⟩ := each a (digits a (by simp))
    obtain ⟨-, second, third⟩ := each b (digits b (by simp))
    have whole : numberText 16 [a, b, c, d] =
        digitValue a * 4096 + digitValue b * 256 + digitValue c * 16 + digitValue d := by
      simp only [numberText, List.foldl_cons, List.foldl_nil]
      ring
    have smallA := bound a (by simp)
    have smallB := bound b (by simp)
    have smallC := bound c (by simp)
    have smallD := bound d (by simp)
    rw [whole]
    simp only [List.take_succ_cons, List.take_zero, List.map_cons, List.map_nil, List.mem_cons, List.cons.injEq, and_true,
      List.not_mem_nil, or_false, first, second, third]
    omega

/-- A text of eight words begins with the first one, where this is not zero. -/
theorem ipv6Hostname_first {rest : List Nat} (positive : word ≠ 0) :
    ∃ after, ipv6Hostname (word :: rest) = toText 16 word ++ after := by
  have side : ∀ later : List Nat, ∃ after, joinText ':' ((word :: later).map (toText 16)) = toText 16 word ++ after := by
    intro later
    cases later with
    | nil => exact ⟨[], (List.append_nil _).symm⟩
    | cons second later => exact ⟨_, rfl⟩
  by_cases compressed : 2 ≤ (longestZeros (word :: rest)).2
  · obtain ⟨-, zeros⟩ := longestZeros_spec (word :: rest)
    have shape : ipv6Hostname (word :: rest) =
        joinText ':' (((word :: rest).take (longestZeros (word :: rest)).1).map (toText 16)) ++ ':' :: ':' ::
          joinText ':' (((word :: rest).drop ((longestZeros (word :: rest)).1 + (longestZeros (word :: rest)).2)).map
            (toText 16)) := if_pos compressed
    rcases begins : (longestZeros (word :: rest)).1 with _ | start
    · obtain ⟨more, run⟩ := Nat.exists_eq_add_of_le' compressed
      rw [begins, run, List.drop_zero, List.take_succ_cons, List.replicate_succ] at zeros
      exact absurd (List.cons.inj zeros).1 positive
    · obtain ⟨after, front⟩ := side (rest.take start)
      rw [shape, begins, List.take_succ_cons, front]
      exact ⟨_, List.append_assoc _ _ _⟩
  · obtain ⟨after, front⟩ := side rest
    exact ⟨after, (ipv6Hostname_whole compressed).trans front⟩

theorem wordText_of_le (large : 0x1000 ≤ word) (small : word < 65536) : wordText word = toText 16 word := by
  have bound := numberText_lt (hexLower_toText word)
  rw [numberText_toText] at bound
  have short := length_toText small
  have four : (toText 16 word).length = 4 := by
    by_contra less
    have power : 16 ^ (toText 16 word).length ≤ 16 ^ 3 := Nat.pow_le_pow_right (by decide) (by omega)
    omega
  rw [wordText, padStart, four]
  rfl

end Words

section Addresses

variable {address domain normalized hostname : Text} {checked : PrivateAddress} {toLowerCase : Text → Text}

theorem privateAddress_eq_ok (accepted : privateAddress address = .ok checked) : '%' ∉ address ∧
    ((∃ octets, ipv4? address = some octets ∧ privateOctets octets = true ∧
        checked = ⟨address, joinText '-' (splitText '.' address)⟩) ∨
      ipv4? address = none ∧ ∃ words, ipv6? address = some words ∧
        (address.take 2).map Char.toLower ∈ [['f', 'c'], ['f', 'd']] ∧
        checked = ⟨ipv6Hostname words, wordsLabel words⟩) := by
  unfold privateAddress at accepted
  split at accepted
  · cases accepted
  · next zone =>
    refine ⟨zone, ?_⟩
    split at accepted
    · next octets four =>
      split at accepted
      · next own =>
        cases accepted
        exact .inl ⟨octets, four, own, rfl⟩
      · cases accepted
    · next words none six =>
      split at accepted
      · next unique =>
        cases accepted
        refine .inr ⟨none, words, six, unique, ?_⟩
        rw [canonicalWords_texts (ipv6?_eq_some six).1, List.map_map]
        rfl
      · cases accepted
    · cases accepted

/-- The parts of the label of an IPv4 address are those of the address. -/
theorem splitText_label4 {octets : List Nat} (read : ipv4? address = some octets) :
    splitText '-' (joinText '-' (splitText '.' address)) = splitText '.' address := by
  obtain ⟨-, -, -, digits⟩ := ipv4?_eq_some read
  apply splitText_joinText
  · exact splitText_ne_nil '.' address
  · intro part member there
    exact (isDigit_ne (List.all_eq_true.mp (digits part member).2 _ there)).2.2 rfl

theorem lanHttpsHostname_eq (accepted : privateAddress address = .ok checked)
    (named : normalizeLanHttpsDomain domain = .ok normalized) :
    lanHttpsHostname address domain = .ok (checked.label ++ '.' :: normalized) := by
  rw [lanHttpsHostname, accepted, named]
  rfl

/-- A name is read when its label is the one of the address that it encodes. -/
theorem lanHttpsAddress_eq_ok {result : Text} : lanHttpsAddress toLowerCase hostname domain = .ok result ↔
    ∃ normalized label encoded checked, normalizeLanHttpsDomain domain = .ok normalized ∧
      toLowerCase hostname = label ++ '.' :: normalized ∧ labelAddress label = .ok encoded ∧
      privateAddress encoded = .ok checked ∧ checked.label = label ∧ checked.address = result := by
  have cut : ∀ label normalized : Text,
      (label ++ '.' :: normalized).take ((label ++ '.' :: normalized).length - ('.' :: normalized).length) = label := by
    simp
  unfold lanHttpsAddress
  simp only [bind_eq_ok, demand_eq_ok]
  constructor
  · rintro ⟨normalized, named, -, ⟨label, whole⟩, encoded, read, checked, accepted, canonical, spelled, -, same, done⟩
    rw [← whole, cut] at read
    refine ⟨normalized, label, encoded, checked, named, whole.symm, read, accepted, ?_, Except.ok.inj done⟩
    rw [lanHttpsHostname_eq accepted named] at spelled
    exact List.append_cancel_right ((Except.ok.inj spelled).trans (same.trans whole.symm))
  · rintro ⟨normalized, label, encoded, checked, named, lower, read, accepted, rfl, rfl⟩
    refine ⟨normalized, named, ⟨⟩, ⟨checked.label, lower.symm⟩, encoded, ?_, checked, accepted, _,
      lanHttpsHostname_eq accepted named, ⟨⟩, lower.symm, rfl⟩
    rwa [lower, cut]

theorem labelAddress_words {words : List Nat} (eight : words.length = 8) (small : SmallWords words) :
    labelAddress (wordsLabel words) = .ok (joinText ':' (words.map wordText)) := by
  obtain ⟨neither, six⟩ := ipv6Label_wordsLabel eight small
  rw [labelAddress, neither, if_neg Bool.false_ne_true, if_pos six,
    splitText_wordsLabel (List.ne_nil_of_length_eq_add_one eight) small]

/-- A text that begins with a whole word is accepted when this is in `fc00::/7`. -/
theorem privateAddress_front {encoded after : Text} {word : Nat} {rest : List Nat} (zone : '%' ∉ encoded)
    (plain : '.' ∉ encoded) (read : ipv6? encoded = some (word :: rest)) (begins : encoded = wordText word ++ after) :
    privateAddress encoded = if 0xfc00 ≤ word ∧ word < 0xfe00 then
      .ok ⟨ipv6Hostname (word :: rest), wordsLabel (word :: rest)⟩ else .error .address := by
  obtain ⟨eight, small⟩ := ipv6?_eq_some read
  obtain ⟨four, hex, value⟩ := wordText_spec (small word List.mem_cons_self)
  have front : encoded.take 2 = (wordText word).take 2 := by
    rw [begins, List.take_append_of_le_length]
    omega
  have unique := take_private four hex
  rw [value] at unique
  rw [privateAddress, if_neg zone, ipv4?_of_not_mem plain, read]
  dsimp only
  rw [front, canonicalWords_texts eight, List.map_map]
  exact if_congr unique rfl rfl

/-- So is the text with every digit of all words. -/
theorem privateAddress_joined {word : Nat} {rest : List Nat} (eight : (word :: rest).length = 8)
    (small : SmallWords (word :: rest)) : privateAddress (joinText ':' ((word :: rest).map wordText)) =
      if 0xfc00 ≤ word ∧ word < 0xfe00 then .ok ⟨ipv6Hostname (word :: rest), wordsLabel (word :: rest)⟩
      else .error .address := by
  obtain ⟨-, six⟩ := ipv6Label_wordsLabel eight small
  obtain ⟨plain, read, -, -⟩ := ipv6?_label six
  rw [splitText_wordsLabel (List.cons_ne_nil word rest) small] at plain read
  rw [numbers_of_wordTexts small] at read
  obtain ⟨after, begins⟩ : ∃ after, joinText ':' ((word :: rest).map wordText) = wordText word ++ after := by
    cases rest with
    | nil => exact ⟨[], (List.append_nil _).symm⟩
    | cons second later => exact ⟨_, rfl⟩
  refine privateAddress_front (not_mem_joinText _ (by decide) fun part member there => ?_) plain read begins
  obtain ⟨other, listed, rfl⟩ := List.mem_map.mp member
  exact absurd (List.all_eq_true.mp (wordText_spec (small other listed)).2.1 _ there) (by decide)

/-- The canonical text of private words is accepted, and is its own canonical form. -/
theorem privateAddress_canonical {word : Nat} {rest : List Nat} (eight : (word :: rest).length = 8)
    (small : SmallWords (word :: rest)) (unique : 0xfc00 ≤ word ∧ word < 0xfe00) :
    privateAddress (ipv6Hostname (word :: rest)) = .ok ⟨ipv6Hostname (word :: rest), wordsLabel (word :: rest)⟩ := by
  obtain ⟨after, begins⟩ := @ipv6Hostname_first word rest (by omega)
  rw [← wordText_of_le (by omega) (small word List.mem_cons_self)] at begins
  have front := privateAddress_front (not_mem_ipv6Hostname (by decide) rfl _) (not_mem_ipv6Hostname (by decide) rfl _)
    (ipv6?_ipv6Hostname eight small) begins
  rwa [if_pos unique] at front

/-- A label that encodes an accepted address, which is then accepted in its canonical form. -/
theorem labelAddress_again {label encoded : Text} (read : labelAddress label = .ok encoded)
    (accepted : privateAddress encoded = .ok checked) : privateAddress checked.address = .ok checked := by
  rcases (privateAddress_eq_ok accepted).2 with ⟨octets, -, -, rfl⟩ | ⟨none, words, six, unique, rfl⟩
  · exact accepted
  · unfold labelAddress at read
    split at read
    · next four =>
      cases read
      have parts := (ipv4Label_parts four).2
      have colonFree : ':' ∉ joinText '.' (splitText '-' label) := not_mem_joinText _ (by decide) fun part member there =>
        (isDigit_ne (List.all_eq_true.mp (parts part member).2 _ there)).1 rfl
      rw [ipv6?_of_not_mem colonFree none] at six
      cases six
    · split at read
      · next label6 =>
        cases read
        obtain ⟨eight, small⟩ := ipv6?_eq_some six
        obtain ⟨-, numbers, -, -⟩ := ipv6?_label label6
        obtain rfl : (splitText '-' label).map (numberText 16) = words := Option.some.inj (numbers.symm.trans six)
        obtain ⟨part, parts, shape⟩ := List.exists_cons_of_ne_nil (splitText_ne_nil '-' label)
        obtain ⟨four, hex⟩ := (ipv6Label_parts label6).2 part (shape ▸ List.mem_cons_self)
        have front : (joinText ':' (part :: parts)).take 2 = part.take 2 := by
          cases parts with
          | nil => rfl
          | cons second parts =>
            rw [joinText, List.take_append_of_le_length (by omega)]
            exact List.cons_ne_nil _ _
        rw [shape, front, take_private four hex] at unique
        rw [shape, List.map_cons] at eight small ⊢
        exact privateAddress_canonical eight small unique
      · cases read

/-- A private address that is accepted has an accepted name: its words begin with four digits. -/
theorem words_private (accepted : '%' ∉ address) (none : ipv4? address = none) {words : List Nat}
    (six : ipv6? address = some words) (unique : (address.take 2).map Char.toLower ∈ [['f', 'c'], ['f', 'd']]) :
    ∃ word rest, words = word :: rest ∧ ((firstGroup address).length = 4 ↔ 0xfc00 ≤ word ∧ word < 0xfe00) := by
  have digit : firstGroup address ≠ [] := by
    intro empty
    match address, unique with
    | c :: rest, unique =>
      have colon : c = ':' := by
        by_contra apart
        rw [firstGroup_cons apart] at empty
        cases empty
      subst colon
      cases rest <;> exact absurd unique (by simp)
    | [], unique => simp at unique
  obtain ⟨group, rest, rfl⟩ := ipv6?_first six none digit
  obtain ⟨whole, short⟩ := firstGroup_private group unique
  refine ⟨_, rest, rfl, whole, fun bounds => ?_⟩
  by_contra other
  have small := short other
  omega

/-- What the names of a domain are to do for an address: the name is read back, names that are read are those of their
addresses, no other address has the name, and the address is private. -/
structure FaithfulName (toLowerCase : Text → Text) (address domain : Text) (checked : PrivateAddress) : Prop where
  decoded : ∃ hostname, lanHttpsHostname address domain = .ok hostname ∧
    lanHttpsAddress toLowerCase hostname domain = .ok checked.address
  encoded : ∀ hostname result, lanHttpsAddress toLowerCase hostname domain = .ok result →
    lanHttpsHostname result domain = .ok (toLowerCase hostname)
  distinct : ∀ other again, privateAddress other = .ok again →
    lanHttpsHostname other domain = lanHttpsHostname address domain → again.address = checked.address
  ranged : ∃ ip, addressValue address = .ok ip ∧ InPrivateRanges ip

/-- Names that are read are those of their addresses. -/
theorem lanHttpsHostname_again {result : Text} (accepted : lanHttpsAddress toLowerCase hostname domain = .ok result) :
    lanHttpsHostname result domain = .ok (toLowerCase hostname) := by
  obtain ⟨normalized, label, encoded, checked, named, lower, read, private', rfl, rfl⟩ := lanHttpsAddress_eq_ok.mp accepted
  rw [lanHttpsHostname_eq (labelAddress_again read private') named, lower]

/-- The labels of two accepted addresses are the same only where their canonical forms are. -/
theorem address_of_label {other : Text} {again : PrivateAddress} (accepted : privateAddress address = .ok checked)
    (another : privateAddress other = .ok again) (same : again.label = checked.label) : again.address = checked.address := by
  have parts := congrArg (splitText '-') same
  rcases (privateAddress_eq_ok accepted).2 with ⟨octets, four, -, rfl⟩ | ⟨-, words, six, -, rfl⟩ <;>
    rcases (privateAddress_eq_ok another).2 with ⟨octets', four', -, rfl⟩ | ⟨-, words', six', -, rfl⟩
  · rw [splitText_label4 four, splitText_label4 four'] at parts
    have joined := congrArg (joinText '.') parts
    rwa [joinText_splitText, joinText_splitText] at joined
  · obtain ⟨eight, small⟩ := ipv6?_eq_some six'
    rw [splitText_label4 four, splitText_wordsLabel (List.ne_nil_of_length_eq_add_one eight) small] at parts
    have lengths := congrArg List.length parts
    obtain ⟨octetParts, count, -, -⟩ := ipv4?_eq_some four
    rw [octetParts, List.length_map] at count
    rw [List.length_map] at lengths
    omega
  · obtain ⟨eight, small⟩ := ipv6?_eq_some six
    rw [splitText_label4 four', splitText_wordsLabel (List.ne_nil_of_length_eq_add_one eight) small] at parts
    have lengths := congrArg List.length parts
    obtain ⟨octetParts, count, -, -⟩ := ipv4?_eq_some four'
    rw [octetParts, List.length_map] at count
    rw [List.length_map] at lengths
    omega
  · obtain ⟨eight, small⟩ := ipv6?_eq_some six
    obtain ⟨eight', small'⟩ := ipv6?_eq_some six'
    rw [splitText_wordsLabel (List.ne_nil_of_length_eq_add_one eight) small,
      splitText_wordsLabel (List.ne_nil_of_length_eq_add_one eight') small'] at parts
    have numbers := congrArg (List.map (numberText 16)) parts
    rw [numbers_of_wordTexts small, numbers_of_wordTexts small'] at numbers
    rw [numbers]

/-- The label of an accepted address has digits and hyphens only. -/
theorem label_chars (accepted : privateAddress address = .ok checked) {c : Char} (member : c ∈ checked.label) :
    hexLower c = true ∨ c = '-' := by
  rcases (privateAddress_eq_ok accepted).2 with ⟨octets, four, -, rfl⟩ | ⟨-, words, six, -, rfl⟩
  · obtain ⟨-, -, -, digits⟩ := ipv4?_eq_some four
    rcases mem_joinText member with hyphen | ⟨part, listed, inside⟩
    · exact .inr hyphen
    · rw [hexLower, List.all_eq_true.mp (digits part listed).2 c inside]
      exact .inl rfl
  · obtain ⟨-, small⟩ := ipv6?_eq_some six
    rcases mem_joinText member with hyphen | ⟨part, listed, inside⟩
    · exact .inr hyphen
    · obtain ⟨word, own, rfl⟩ := List.mem_map.mp listed
      exact .inl (List.all_eq_true.mp (wordText_spec (small word own)).2.1 c inside)

theorem labelChar_small {c : Char} (label : (labelChar c || c == '-') = true) : c.toNat < 128 := by
  rw [Bool.or_eq_true, beq_iff_eq] at label
  rcases label with letter | rfl
  · delta labelChar Char.isAlphanum Char.isAlpha Char.isUpper Char.isLower Char.isDigit at letter
    simp only [Bool.or_eq_true, Bool.and_eq_true, decide_eq_true_eq, ge_iff_le] at letter
    rcases letter with (⟨_, upper⟩ | ⟨_, upper⟩) | ⟨_, upper⟩ <;>
      exact Nat.lt_of_le_of_lt (UInt32.le_iff_toNat_le.mp upper) (by decide)
  · decide

theorem normal_small (named : normalizeLanHttpsDomain domain = .ok normalized) {c : Char} (member : c ∈ normalized) :
    c.toNat < 128 := by
  unfold normalizeLanHttpsDomain at named
  split at named
  · next accepted =>
    cases named
    obtain ⟨-, -, -, labels, -⟩ := accepted
    obtain ⟨d, there, rfl⟩ := List.mem_map.mp member
    rw [← @joinText_splitText '.' domain] at there
    have small : d.toNat < 128 := by
      rcases mem_joinText there with rfl | ⟨part, listed, inside⟩
      · decide
      · have accepted := List.all_eq_true.mp labels part listed
        simp only [dnsLabel, Bool.and_eq_true, decide_eq_true_eq] at accepted
        exact labelChar_small (List.all_eq_true.mp accepted.1.1.2 d inside)
    exact of_decide_eq_true (ascii_forall (P := fun c => decide (c.toLower.toNat < 128)) (by decide) small)
  · cases named

theorem name_lower (ascii : ∀ text : Text, (∀ c ∈ text, c.toNat < 128) → toLowerCase text = text.map Char.toLower)
    (accepted : privateAddress address = .ok checked) (named : normalizeLanHttpsDomain domain = .ok normalized) :
    toLowerCase (checked.label ++ '.' :: normalized) = checked.label ++ '.' :: normalized := by
  have digits : ∀ n : Fin 128, hexLower (Char.ofNat n) = true → (Char.ofNat n).toLower = Char.ofNat n := by decide
  have lower : checked.label.map Char.toLower = checked.label := by
    refine (List.map_congr_left fun c member => ?_).trans (List.map_id _)
    rcases label_chars accepted member with hex | rfl
    · exact of_decide_eq_true (ascii_forall (P := fun c => decide (hexLower c = true → c.toLower = c))
        (fun n => decide_eq_true (digits n)) (hexLower_small hex)) hex
    · rfl
  rw [ascii]
  · rw [List.map_append, lower, List.map_cons]
    exact congrArg (fun tail => checked.label ++ '.' :: tail) (normal_spec named).1
  · intro c member
    rcases List.mem_append.mp member with front | back
    · rcases label_chars accepted front with hex | rfl
      · exact hexLower_small hex
      · decide
    · rcases List.mem_cons.mp back with rfl | inside
      · decide
      · exact normal_small named inside

/-- An accepted address has a faithful name exactly when it is an IPv4 address, or an IPv6 address with four digits
before its first colon. -/
theorem faithfulName_iff (ascii : ∀ text : Text, (∀ c ∈ text, c.toNat < 128) → toLowerCase text = text.map Char.toLower)
    (accepted : privateAddress address = .ok checked) (named : normalizeLanHttpsDomain domain = .ok normalized) :
    FaithfulName toLowerCase address domain checked ↔
      (ipv4? address).isSome = true ∨ (firstGroup address).length = 4 := by
  have hostname := lanHttpsHostname_eq accepted named
  have lower := name_lower ascii accepted named
  -- what is read back and is private is all that an address decides
  have faithful : ∀ encoded again, labelAddress checked.label = .ok encoded → privateAddress encoded = .ok again →
      again = checked → (∃ ip, addressValue address = .ok ip ∧ InPrivateRanges ip) →
      FaithfulName toLowerCase address domain checked := by
    rintro encoded _ read own rfl ranged
    refine ⟨⟨_, hostname, ?_⟩, fun _ _ => lanHttpsHostname_again, fun other again another same => ?_, ranged⟩
    · exact lanHttpsAddress_eq_ok.mpr ⟨normalized, _, encoded, _, named, lower, read, own, rfl, rfl⟩
    · rw [lanHttpsHostname_eq another named, hostname] at same
      exact address_of_label accepted another (List.append_cancel_right (Except.ok.inj same))
  obtain ⟨zone, ⟨octets, four, own, rfl⟩ | ⟨none, words, six, unique, rfl⟩⟩ := privateAddress_eq_ok accepted
  · obtain ⟨parts, count, small, digits⟩ := ipv4?_eq_some four
    refine iff_of_true (faithful address _ ?_ accepted rfl ?_) (.inl (by rw [four]; rfl))
    · have label : ipv4Label (joinText '-' (splitText '.' address)) = true := by
        rw [parts, List.length_map] at count
        rw [ipv4Label, splitText_label4 four, decide_eq_true count, Bool.true_and, List.all_eq_true]
        intro part member
        rw [Bool.and_eq_true, decide_eq_true_eq]
        exact digits part member
      rw [labelAddress, if_pos label, splitText_label4 four, joinText_splitText]
    · exact ⟨_, addressValue_four zone four, (privateOctets_iff count small).mp own⟩
  · obtain ⟨eight, small⟩ := ipv6?_eq_some six
    obtain ⟨word, rest, rfl, digits⟩ := words_private zone none six unique
    rw [none, digits]
    have value := addressValue_six zone none six
    have seven : rest.length = 7 := Nat.succ.inj eight
    have ranged := @privateWords_iff word rest seven fun other member => small other (List.mem_cons_of_mem _ member)
    constructor
    · rintro ⟨-, -, -, ip, read, within⟩
      obtain rfl := Except.ok.inj (value.symm.trans read)
      exact .inr (ranged.mp within)
    · rintro (never | bounds)
      · cases never
      · have joined := privateAddress_joined eight small
        rw [if_pos bounds] at joined
        exact faithful _ _ (labelAddress_words eight small) joined rfl ⟨_, value, ranged.mpr bounds⟩

/-- A private IPv4 address below a domain. -/
theorem faithfulName_192 : FaithfulName (List.map Char.toLower) "192.168.1.5".toList "Lan.example.com".toList
    ⟨"192.168.1.5".toList, "192-168-1-5".toList⟩ := by
  have accepted : privateAddress "192.168.1.5".toList = .ok ⟨"192.168.1.5".toList, "192-168-1-5".toList⟩ := by
    decide +kernel
  have named : normalizeLanHttpsDomain "Lan.example.com".toList = .ok "lan.example.com".toList := by decide +kernel
  exact (faithfulName_iff (fun _ _ => rfl) accepted named).mpr (.inl (by decide +kernel))

/-- The text `fc::1` is accepted, but is the address `00fc::1`: outside `fc00::/7`, and its name is not read back. -/
theorem lanHttpsAddress_short :
    privateAddress "fc::1".toList = .ok ⟨"fc::1".toList, "00fc-0000-0000-0000-0000-0000-0000-0001".toList⟩ ∧
      lanHttpsHostname "fc::1".toList "lan.example.com".toList =
        .ok "00fc-0000-0000-0000-0000-0000-0000-0001.lan.example.com".toList ∧
      lanHttpsAddress (List.map Char.toLower) "00fc-0000-0000-0000-0000-0000-0000-0001.lan.example.com".toList
        "lan.example.com".toList = .error .address ∧
      ∃ ip, addressValue "fc::1".toList = .ok ip ∧ ¬ InPrivateRanges ip := by
  refine ⟨by decide +kernel, by decide +kernel, by decide +kernel, ⟨.six, 0xfc * 2 ^ 112 + 1⟩, by decide +kernel, ?_⟩
  show ¬ (0xfc * 2 ^ 112 + 1) / 2 ^ (128 - 7) = 0xfc * 2 ^ 120 / 2 ^ (128 - 7)
  norm_num

end Addresses

end LatexRenderer
