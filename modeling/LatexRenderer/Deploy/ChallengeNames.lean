import Mathlib.Algebra.Order.BigOperators.Group.List
import LatexRenderer.Deploy.AuthorityChanges
import LatexRenderer.Deploy.AuthorityNames
import LatexRenderer.Deploy.DnsReplies

/-! # Names that have challenges

A name of short labels in the accepted letters is read from every question that spells it, in whatever case. The names
that the authority accepts a challenge for are such names, and the DNS responder recognises each of them.
-/

namespace LatexRenderer

open Machine

section Questions

variable {packet : Octets}

/-- Labels of the accepted letters that stand in the packet are read. -/
theorem questionLabels_stands {name : DnsName} {turns offset bytes : Nat} {labels : List Text}
    (stands : StandsAt packet offset (nameOctets name))
    (each : ∀ label ∈ name, (1 ≤ label.length ∧ label.length ≤ 63) ∧ (queryLabel label).all queryLabelChar = true)
    (short : bytes + (nameOctets name).length ≤ 255) (enough : 255 ≤ bytes + turns) :
    questionLabels packet turns offset bytes labels =
      .ok (labels ++ name.map queryLabel, offset + (nameOctets name).length) := by
  induction name generalizing turns offset bytes labels with
  | nil =>
    rw [nameOctets_nil, List.length_singleton] at short
    obtain ⟨turns, rfl⟩ : ∃ more, turns = more + 1 := ⟨turns - 1, by omega⟩
    have found := (standsAt_cons.mp stands).1
    rw [questionLabels, found]
    simp [nameOctets_nil]
  | cons label name ih =>
    obtain ⟨⟨some, few⟩, chars⟩ := each label List.mem_cons_self
    rw [nameOctets_cons] at stands
    obtain ⟨found, stands⟩ := standsAt_cons.mp stands
    obtain ⟨here, later⟩ := standsAt_append.mp stands
    have inside := here.bound (List.length_pos_iff.mp some)
    have size : (UInt8.ofNat label.length).toNat = label.length := by
      rw [UInt8.toNat_ofNat']
      omega
    have positive : UInt8.ofNat label.length ≠ 0 := by
      intro zero
      have none := congrArg UInt8.toNat zero
      rw [size] at none
      have empty : label.length = 0 := none
      omega
    rw [nameOctets_cons, List.length_cons, List.length_append] at short
    obtain ⟨turns, rfl⟩ : ∃ more, turns = more + 1 := ⟨turns - 1, by omega⟩
    have nonempty : queryLabel label ≠ [] := by
      rw [← List.length_pos_iff, queryLabel, lowerText, List.length_map, List.length_map]
      exact some
    have tail : 1 ≤ (nameOctets name).length := by
      rw [length_nameOctets]
      omega
    rw [questionLabels, found]
    dsimp only
    have within : ¬ (63 < label.length ∨ packet.length < offset + 1 + label.length) := by omega
    rw [if_neg positive, size, here.slice_eq, if_neg within, if_neg (by simp [nonempty, chars]), if_neg (by omega),
      ih later (fun other member => each other (List.mem_cons_of_mem _ member)) (by omega) (by omega)]
    rw [List.map_cons, List.append_assoc, List.singleton_append, nameOctets_cons, List.length_cons, List.length_append]
    congr 2
    omega

/-- A question of accepted letters that stands behind the header is read. -/
theorem question_stands {name : DnsName} {type qclass : Nat} (some : name ≠ []) (well : name.Well)
    (chars : ∀ label ∈ name, (queryLabel label).all queryLabelChar = true)
    (typeSmall : type < 65536) (classSmall : qclass < 65536)
    (stands : StandsAt packet 12 (questionOctets { name, type, qclass })) :
    question packet = .ok { name := joinText '.' (name.map queryLabel), type, qclass } := by
  have short : (nameOctets name).length ≤ 255 := well.short
  have whole : questionOctets { name, type, qclass } = nameOctets name ++ (beOctets 2 type ++ beOctets 2 qclass) :=
    List.append_assoc _ _ _
  rw [whole] at stands
  have inside := stands.bound (by simp [← List.length_pos_iff])
  obtain ⟨named, rest⟩ := standsAt_append.mp stands
  obtain ⟨typed, classed⟩ := standsAt_append.mp rest
  have walked : questionLabels packet 255 12 0 [] = .ok ([] ++ name.map queryLabel, 12 + (nameOctets name).length) :=
    questionLabels_stands named (fun label member => ⟨well.labels label member, chars label member⟩) (by omega) (by omega)
  rw [List.length_append, List.length_append, length_beOctets, length_beOctets] at inside
  have typeRead : readUInt16BE packet (12 + (nameOctets name).length) = type := by
    have octets := typed.slice_eq
    rw [length_beOctets] at octets
    rw [readUInt16BE, octets, bigEndian_beOctets (by omega)]
  have classRead : readUInt16BE packet (12 + (nameOctets name).length + 2) = qclass := by
    rw [length_beOctets] at classed
    have octets := classed.slice_eq
    rw [length_beOctets] at octets
    rw [readUInt16BE, octets, bigEndian_beOctets (by omega)]
  unfold question
  rw [walked]
  refine (demand_bind_eq_ok (β := DnsQuery)).mpr ⟨⟨by simpa using some, by omega⟩, ?_⟩
  rw [typeRead, classRead]
  rfl

end Questions

section Spellings

variable {name spelling label domain hostname address : Text} {packet : Octets}

/-- A name that a question can have: short labels of the accepted letters. -/
structure Askable (name : Text) : Prop where
  named : NamedWell name
  chars : ∀ c ∈ name, c = '.' ∨ queryLabelChar c = true

theorem Askable.cons (askable : Askable name) (length : 1 ≤ label.length ∧ label.length ≤ 63)
    (chars : label.all queryLabelChar = true) (short : label.length + name.length < 253) :
    Askable (label ++ '.' :: name) where
  named := askable.named.cons (fun there => absurd (List.all_eq_true.mp chars _ there) (by decide)) length short
  chars c member := by
    rcases List.mem_append.mp member with front | back
    · exact .inr (List.all_eq_true.mp chars c front)
    · rcases List.mem_cons.mp back with rfl | back
      · exact .inl rfl
      · exact askable.chars c back

/-- Only ASCII letters have an ASCII letter as their small one. -/
theorem small_of_toLower {c : Char} (small : c.toLower.toNat < 128) : c.toNat < 128 := by
  by_contra large
  rw [toLower_of_large large] at small
  exact large small

theorem isLower_small {c : Char} (lower : c.isLower = true) : c.toNat < 128 := by
  have both : (decide ('a'.val ≤ c.val) && decide (c.val ≤ 'z'.val)) = true := lower
  rw [Bool.and_eq_true, decide_eq_true_eq, decide_eq_true_eq] at both
  exact Nat.lt_of_le_of_lt (UInt32.le_iff_toNat_le.mp both.2) (by decide)

theorem isDigit_small {c : Char} (digit : c.isDigit = true) : c.toNat < 128 := by
  have both : (decide ('0'.val ≤ c.val) && decide (c.val ≤ '9'.val)) = true := digit
  rw [Bool.and_eq_true, decide_eq_true_eq, decide_eq_true_eq] at both
  exact Nat.lt_of_le_of_lt (UInt32.le_iff_toNat_le.mp both.2) (by decide)

theorem isAlphanum_small {c : Char} (char : c.isAlphanum = true) : c.toNat < 128 := by
  have each : ((c.isUpper || c.isLower) || c.isDigit) = true := char
  rw [Bool.or_eq_true, Bool.or_eq_true] at each
  rcases each with (upper | lower) | digit
  · have both : 'A'.val ≤ c.val ∧ c.val ≤ 'Z'.val := of_decide_eq_true upper
    exact Nat.lt_of_le_of_lt (UInt32.le_iff_toNat_le.mp both.2) (by decide)
  · exact isLower_small lower
  · exact isDigit_small digit

theorem queryLabelChar_small {c : Char} (char : queryLabelChar c = true) : c.toNat < 128 := by
  simp only [queryLabelChar, Bool.or_eq_true, beq_iff_eq] at char
  rcases char with ((lower | digit) | rfl) | rfl
  · exact isLower_small lower
  · exact isDigit_small digit
  · decide
  · decide

theorem mem_joinText_of_mem {c separator : Char} {part : Text} {parts : List Text} (listed : part ∈ parts) (member : c ∈ part) :
    c ∈ joinText separator parts := by
  induction parts with
  | nil => cases listed
  | cons first rest ih =>
    cases rest with
    | nil => exact List.mem_singleton.mp listed ▸ member
    | cons second rest =>
      rw [joinText, List.mem_append, List.mem_cons]
      · rcases List.mem_cons.mp listed with rfl | later
        · exact .inl member
        · exact .inr (.inr (ih later))
      · exact List.cons_ne_nil _ _

theorem mem_of_mem_splitText {c separator : Char} {part text : Text} (listed : part ∈ splitText separator text) (member : c ∈ part) :
    c ∈ text := by
  have there : c ∈ joinText separator (splitText separator text) := mem_joinText_of_mem listed member
  rwa [joinText_splitText] at there

/-- Every spelling of a name is asked by a packet that has it behind the header. -/
theorem question_spelled {type qclass : Nat} (askable : Askable name) (spelled : lowerText spelling = name)
    (typeSmall : type < 65536) (classSmall : qclass < 65536)
    (stands : StandsAt packet 12 (dnsName spelling ++ u16 type ++ u16 qclass)) :
    question packet = .ok { name, type, qclass } := by
  have small : ∀ c ∈ spelling, c.toNat < 128 := by
    intro c member
    refine small_of_toLower ?_
    have there : c.toLower ∈ name := spelled ▸ List.mem_map_of_mem member
    rcases askable.chars _ there with dot | char
    · rw [dot]
      decide
    · exact queryLabelChar_small char
  have labels : (labelsOf spelling).map queryLabel = splitText '.' name := by
    rw [← spelled, lowerText, splitText_map toLower_eq_dot, labelsOf, List.map_map]
    refine List.map_congr_left fun label member => ?_
    have back : (ascii label).map (fun octet => Char.ofNat octet.toNat) = label := by
      rw [ascii, List.map_map]
      conv_rhs => rw [← List.map_id label]
      refine List.map_congr_left fun c there => ?_
      have bound := small c (mem_of_mem_splitText member there)
      rw [Function.comp_apply, UInt8.toNat_ofNat', Nat.mod_eq_of_lt (by omega), Char.ofNat_toNat, id]
    rw [Function.comp_apply, queryLabel, back, lowerText]
  have lengths : (labelsOf spelling).map List.length = (splitText '.' name).map List.length := by
    rw [← labels, List.map_map]
    exact List.map_congr_left fun label _ => by simp [queryLabel, lowerText]
  have well : (labelsOf spelling).Well := by
    have long : spelling.length = name.length := by rw [← spelled, lowerText, List.length_map]
    refine ⟨fun label member => ?_, ?_⟩
    · have there : label.length ∈ (splitText '.' name).map List.length := lengths ▸ List.mem_map_of_mem member
      obtain ⟨part, listed, same⟩ := List.mem_map.mp there
      rw [← same]
      exact askable.named.labels part listed
    · rw [← dnsName_eq, length_dnsName, long]
      have short := askable.named.short
      omega
  have section' : dnsName spelling ++ u16 type ++ u16 qclass =
      questionOctets { name := labelsOf spelling, type, qclass } := by
    rw [dnsName_eq]
    rfl
  have letters : ∀ label ∈ labelsOf spelling, (queryLabel label).all queryLabelChar = true := by
    intro label member
    have there : queryLabel label ∈ splitText '.' name := labels ▸ List.mem_map_of_mem member
    refine List.all_eq_true.mpr fun c listed => ?_
    refine (askable.chars c (mem_of_mem_splitText there listed)).resolve_left fun dot => ?_
    exact not_mem_splitText there (dot ▸ listed)
  rw [question_stands (by simp [labelsOf, splitText_ne_nil]) well letters typeSmall classSmall (section' ▸ stands),
    labels, joinText_splitText]

end Spellings

section Names

variable {Body : Type} {runtime : AuthorityRuntime Body} {policy : AuthorityPolicy} {zone : LanDnsZone}
  {name hostname domain value label address : Text} {id : InstallationId} {toLowerCase : Text → Text}

theorem toLower_queryLabelChar {c : Char} (char : queryLabelChar c = true) : c.toLower = c := by
  have each := ascii_forall (P := fun c => !queryLabelChar c || c.toLower == c) (by decide) (queryLabelChar_small char)
  rw [char] at each
  simpa using each

theorem Askable.lower (askable : Askable name) : lowerText name = name := by
  refine map_eq_self.mpr fun c member => ?_
  rcases askable.chars c member with rfl | char
  · decide
  · exact toLower_queryLabelChar char

theorem askable_domain (normal : normalizeLanHttpsDomain value = .ok domain) : Askable domain := by
  refine ⟨(normal_spec normal).2.2, fun c member => ?_⟩
  unfold normalizeLanHttpsDomain at normal
  split at normal
  · next accepted =>
    cases normal
    obtain ⟨letter, there, rfl⟩ := List.mem_map.mp member
    have whole : joinText '.' (splitText '.' value) = value := joinText_splitText
    rw [← whole] at there
    rcases mem_joinText there with rfl | ⟨part, listed, inside⟩
    · exact .inl rfl
    · have label := List.all_eq_true.mp accepted.2.2.2.1 part listed
      simp only [dnsLabel, Bool.and_eq_true] at label
      have char := List.all_eq_true.mp label.1.1.2 letter inside
      have small : letter.toNat < 128 := by
        rw [Bool.or_eq_true, beq_iff_eq] at char
        rcases char with alphanum | rfl
        · exact isAlphanum_small alphanum
        · decide
      have each := ascii_forall (P := fun c => !(labelChar c || c == '-') || queryLabelChar c.toLower) (by decide) small
      rw [char] at each
      exact .inr (by simpa using each)
  · cases normal

theorem length_installationDigits (id : InstallationId) : 1 ≤ (toText 36 id.toNat).length ∧ (toText 36 id.toNat).length ≤ 50 ∧
    (toText 36 id.toNat).all (fun c => c.isLower || c.isDigit) = true := by
  have digits : ∀ digit : Fin 36, ((digitText digit).isLower || (digitText digit).isDigit) = true := by decide
  have few : (Nat.digits 36 id.toNat).length ≤ 50 :=
    (Nat.digits_length_le_iff (by decide) _).mpr (Nat.lt_trans id.isLt (by decide))
  refine ⟨List.length_pos_iff.mpr (toText_ne_nil _), ?_, ?_⟩
  · unfold toText
    split
    · decide
    · rwa [List.length_reverse, List.length_map]
  · unfold toText
    split
    · decide
    · refine List.all_eq_true.mpr fun c member => ?_
      obtain ⟨digit, there, rfl⟩ := List.mem_map.mp (List.mem_reverse.mp member)
      exact digits ⟨digit, Nat.digits_lt_base (by decide) there⟩

theorem mapM_eq_some_mem {α β : Type} {f : α → Option β} {entries : List α} {results : List β}
    (read : entries.mapM f = some results) {entry : α} (member : entry ∈ entries) : ∃ result, f entry = some result := by
  induction entries generalizing results with
  | nil => cases member
  | cons first rest ih =>
    rw [List.mapM_cons] at read
    obtain ⟨result, found, read⟩ := Option.bind_eq_some_iff.mp read
    obtain ⟨later, others, -⟩ := Option.bind_eq_some_iff.mp read
    rcases List.mem_cons.mp member with rfl | after
    · exact ⟨result, found⟩
    · exact ih others after

theorem length_pos_of_splitText {separator : Char} {text : Text} (several : 1 < (splitText separator text).length) :
    1 ≤ text.length := by
  rcases text with - | ⟨c, rest⟩
  · exact absurd several (by simp [splitText])
  · exact Nat.succ_pos _

theorem addressLabel_askable (accepted : lanHttpsAddress toLowerCase hostname domain = .ok address) :
    ∃ normalized label, normalizeLanHttpsDomain domain = .ok normalized ∧ toLowerCase hostname = label ++ '.' :: normalized ∧
      (1 ≤ label.length ∧ label.length ≤ 63) ∧ label.all queryLabelChar = true := by
  have parsed := accepted
  unfold lanHttpsAddress at accepted
  simp only [bind_eq_ok, demand_eq_ok] at accepted
  obtain ⟨normalized, same, -, within, value, label, checked, checks, -⟩ := accepted
  obtain ⟨front, whole⟩ := within
  have cut : (toLowerCase hostname).take ((toLowerCase hostname).length - ('.' :: normalized).length) = front := by
    rw [← whole]
    simp
  rw [cut, labelAddress] at label
  have total := length_splitText '-' front
  refine ⟨normalized, front, same, whole.symm, ?_⟩
  have lengths : ∀ bound, (∀ part ∈ splitText '-' front, part.length ≤ bound) →
      ((splitText '-' front).map fun part => part.length + 1).sum ≤ (splitText '-' front).length * (bound + 1) := by
    intro bound each
    have step := List.sum_le_card_nsmul ((splitText '-' front).map fun part => part.length + 1) (bound + 1) fun size member => by
      obtain ⟨part, there, rfl⟩ := List.mem_map.mp member
      exact Nat.succ_le_succ (each part there)
    simpa using step
  have letters : (∀ part ∈ splitText '-' front, part.all queryLabelChar = true) → front.all queryLabelChar = true := by
    intro each
    refine List.all_eq_true.mpr fun c member => ?_
    have whole : joinText '-' (splitText '-' front) = front := joinText_splitText
    rw [← whole] at member
    rcases mem_joinText member with rfl | ⟨part, listed, inside⟩
    · decide
    · exact List.all_eq_true.mp (each part listed) c inside
  by_cases four : ipv4Label front = true
  · obtain ⟨count, parts⟩ := ipv4Label_parts four
    rw [if_pos four] at label
    cases label
    have short : ∀ part ∈ splitText '-' front, part.length ≤ 3 := by
      have dotFree : ∀ part ∈ splitText '-' front, '.' ∉ part := fun part member there =>
        (isDigit_ne (List.all_eq_true.mp (parts part member).2 _ there)).2.1 rfl
      have colonFree : ':' ∉ joinText '.' (splitText '-' front) := not_mem_joinText _ (by decide) fun part member there =>
        (isDigit_ne (List.all_eq_true.mp (parts part member).2 _ there)).1 rfl
      have split := splitText_joinText '.' (splitText_ne_nil '-' front) dotFree
      cases four' : ipv4? (joinText '.' (splitText '-' front)) with
      | none =>
        unfold privateAddress at checks
        rw [four', ipv6?_of_not_mem colonFree four'] at checks
        split at checks <;> cases checks
      | some octets =>
        rw [ipv4?, split, if_pos count] at four'
        intro part member
        obtain ⟨octet, read⟩ := mapM_eq_some_mem four' member
        unfold ipv4Octet at read
        split at read
        · next group => exact group.2.2.1
        · cases read
    have bound := lengths 3 short
    rw [total, count] at bound
    have some : 1 ≤ front.length := length_pos_of_splitText (show 1 < (splitText '-' front).length by omega)
    exact ⟨⟨some, by omega⟩, letters fun part member => List.all_eq_true.mpr fun c there => by
      have digit := List.all_eq_true.mp (parts part member).2 c there
      simp [queryLabelChar, digit]⟩
  · rw [if_neg four] at label
    by_cases six : ipv6Label front = true
    · obtain ⟨count, parts⟩ := ipv6Label_parts six
      have bound := lengths 4 fun part member => (parts part member).1.le
      rw [total, count] at bound
      have some : 1 ≤ front.length := length_pos_of_splitText (show 1 < (splitText '-' front).length by omega)
      exact ⟨⟨some, by omega⟩, letters fun part member => List.all_eq_true.mpr fun c there => by
        have hex := List.all_eq_true.mp (parts part member).2 c there
        have each := ascii_forall (P := fun c => !hexLower c || queryLabelChar c) (by decide) (hexLower_small hex)
        simpa [hex] using each⟩
    · rw [if_neg six] at label
      cases label

theorem length_challengeName (hostname : Text) : (challengeName hostname).length = hostname.length + 16 := by
  have whole : challengeName hostname = "_acme-challenge.".toList ++ hostname := rfl
  have size : "_acme-challenge.".toList.length = 16 := rfl
  rw [whole, List.length_append]
  omega

theorem askable_challengeName (askable : Askable hostname) (short : hostname.length + 16 ≤ 253) :
    Askable (challengeName hostname) := by
  have whole : challengeName hostname = "_acme-challenge".toList ++ '.' :: hostname := rfl
  have length : "_acme-challenge".toList.length = 15 := rfl
  rw [whole]
  exact askable.cons (by decide) (by decide) (by omega)

/-- A hostname with a challenge is the domain or below it, can be asked for, and the responder recognises it. -/
theorem recognised (served : zone.domain = policy.lanDomain) (short : hostname.length + 16 ≤ 253)
    (presented : hostname ∈ operatorHostnames policy ∨ ∃ id, AllowedHostname runtime policy id hostname) :
    Askable hostname ∧ (hostname = zone.domain ∨ ('.' :: zone.domain) <:+ hostname) ∧
      (zone.eligibleName hostname = true ∨ hostname ∈ zone.operatorNames) := by
  have domain : Askable policy.lanDomain := askable_domain policy.normalized
  have normal : ∀ {normalized}, normalizeLanHttpsDomain policy.lanDomain = .ok normalized → normalized = policy.lanDomain :=
    fun same => Except.ok.inj (same.symm.trans policy.normalized)
  rw [served]
  rcases presented with operator | ⟨id, lower, own | ⟨address, accepted⟩⟩
  · refine ⟨?_, ?_, .inr (by rwa [LanDnsZone.operatorNames, served])⟩
    · rcases List.mem_pair.mp operator with rfl | rfl
      · exact domain
      · have control : "authority-control.".toList ++ policy.lanDomain = "authority-control".toList ++ '.' :: policy.lanDomain :=
          rfl
        have length : ("authority-control.".toList ++ policy.lanDomain).length = policy.lanDomain.length + 18 := by
          rw [List.length_append, Nat.add_comm]
          rfl
        have size : "authority-control".toList.length = 17 := rfl
        rw [control]
        exact domain.cons (by decide) (by decide) (by omega)
    · rcases List.mem_pair.mp operator with rfl | rfl
      · exact .inl rfl
      · exact .inr ⟨"authority-control".toList, rfl⟩
  · obtain ⟨normalized, same, rfl⟩ := managementHostname_eq own
    obtain rfl := normal same
    obtain ⟨some, few, digits⟩ := length_installationDigits id
    generalize toText 36 id.toNat = number at some few digits short
    have size : ".instances.".toList.length = 11 := rfl
    have front : 'i' :: '-' :: number ++ ".instances.".toList ++ policy.lanDomain =
        ('i' :: '-' :: number) ++ '.' :: ("instances".toList ++ '.' :: policy.lanDomain) := by simp
    rw [List.length_append, List.length_append, List.length_cons, List.length_cons, size] at short
    have instances : Askable ("instances".toList ++ '.' :: policy.lanDomain) := by
      have length : "instances".toList.length = 9 := rfl
      exact domain.cons (by decide) (by decide) (by omega)
    have chars : ('i' :: '-' :: number).all queryLabelChar = true := by
      refine List.all_eq_true.mpr fun c member => ?_
      rcases List.mem_cons.mp member with rfl | member
      · decide
      rcases List.mem_cons.mp member with rfl | member
      · decide
      · have char := List.all_eq_true.mp digits c member
        rw [Bool.or_eq_true] at char
        rcases char with lower | digit
        · simp [queryLabelChar, lower]
        · simp [queryLabelChar, digit]
    refine ⟨?_, .inr ⟨'i' :: '-' :: number ++ ".instances".toList, by simp⟩, .inl ?_⟩
    · rw [front]
      refine instances.cons ⟨by simp, by simp; omega⟩ chars ?_
      simp only [List.length_cons, List.length_append]
      have length : "instances".toList.length = 9 := rfl
      omega
    · have managed : zone.managed ('i' :: '-' :: number ++ ".instances.".toList ++ policy.lanDomain) = true := by
        have cut : ('i' :: '-' :: number ++ ".instances.".toList ++ policy.lanDomain).drop 2 =
            number ++ (".instances.".toList ++ policy.lanDomain) := by simp
        have length : ('i' :: '-' :: number ++ ".instances.".toList ++ policy.lanDomain).length - 2 -
            (".instances.".toList ++ policy.lanDomain).length = number.length := by
          simp only [List.length_append, List.length_cons, size]
          omega
        rw [LanDnsZone.managed, served]
        rw [length, cut, List.take_left']
        · simp only [Bool.and_eq_true, decide_eq_true_eq]
          exact ⟨⟨⟨⟨⟨number ++ ".instances.".toList ++ policy.lanDomain, rfl⟩, List.suffix_append _ _⟩, some⟩, few⟩, digits⟩
        · rfl
      rw [LanDnsZone.eligibleName]
      split
      · rfl
      · exact managed
  · obtain ⟨normalized, label, same, whole, length, chars⟩ := addressLabel_askable accepted
    obtain rfl := normal same
    rw [← lower] at whole
    subst whole
    have askable : Askable (label ++ '.' :: policy.lanDomain) := by
      refine domain.cons length chars ?_
      rw [List.length_append, List.length_cons] at short
      omega
    refine ⟨askable, .inr ⟨label, rfl⟩, .inl ?_⟩
    have again : lanHttpsAddress lowerText (label ++ '.' :: policy.lanDomain) policy.lanDomain = .ok address := by
      unfold lanHttpsAddress at accepted ⊢
      rwa [askable.lower, lower]
    rw [LanDnsZone.eligibleName, served, again]

end Names

end LatexRenderer
