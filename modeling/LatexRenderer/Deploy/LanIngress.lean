import LatexRenderer.Deploy.Networks

/-! # A LAN ingress admits private clients only

An accepted LAN review listens at a private address and admits the clients of private networks, one of which contains
this address. The choices of the interfaces are accepted where the address is in `fc00::/7` and not only its text.
-/

namespace LatexRenderer

open Machine

section Reviews

variable {url : UrlParser} {input : IngressInput} {review : IngressReview} {ip : IngressAddress}
  {identities : List (AddressFamily × Nat × Nat)} {entries : List (Option Text)} {networks : List Text}

/-- A network of a review: sound, and inside the private ranges. -/
structure LanNetwork (value : Text) : Prop where
  canonical : ∃ network, networkValue value = .ok network ∧ network.Sound ∧
    ∃ address, value = address ++ '/' :: toText 10 network.length
  ranged : ∀ network, networkValue value = .ok network → ∀ ip : IngressAddress, ip.value < 2 ^ ip.family.bits →
    networkContains network ip = true → InPrivateRanges ip

/-- What a LAN review lets in. -/
structure LanOnly (address : Text) (networks : List Text) : Prop where
  listener : ∃ ip, addressValue address = .ok ip ∧ InPrivateRanges ip
  each : ∀ value ∈ networks, LanNetwork value
  different : networks.Pairwise fun one other => networkValue one ≠ networkValue other
  included : ∃ value ∈ networks, serverIngressContainsAddress value address = .ok true

/-- The networks that were checked are private, and different from one another and from those before. -/
theorem checkNetworks_eq_ok (accepted : checkNetworks identities entries = .ok networks) :
    (∀ value ∈ networks, LanNetwork value ∧ ∃ network, networkValue value = .ok network ∧
      (network.family, network.value, network.length) ∉ identities) ∧
      networks.Pairwise fun one other => networkValue one ≠ networkValue other := by
  induction entries generalizing identities networks with
  | nil =>
    cases accepted
    exact ⟨fun value member => (by cases member), List.Pairwise.nil⟩
  | cons entry rest ih =>
    simp only [checkNetworks, bind_eq_ok, demand_eq_ok, obtain?_eq_ok] at accepted
    obtain ⟨value, rfl, network, read, -, isPrivate, -, fresh, later, others, done⟩ := accepted
    cases done
    obtain ⟨sound, written⟩ := networkValue_eq_ok read
    obtain ⟨each, different⟩ := ih others
    have unseen : (network.family, network.value, network.length) ∉ identities := by
      simpa using fresh
    have here : LanNetwork value := by
      refine ⟨⟨network, read, sound, written⟩, fun other same ip small contains => ?_⟩
      obtain rfl := Except.ok.inj (read.symm.trans same)
      exact private_of_contains sound isPrivate small contains
    constructor
    · rw [List.forall_mem_cons]
      refine ⟨⟨here, network, read, unseen⟩, fun other member => ?_⟩
      obtain ⟨lan, found, also, apart⟩ := each other member
      exact ⟨lan, found, also, fun before => apart (List.mem_cons_of_mem _ before)⟩
    · refine List.Pairwise.cons (fun other member same => ?_) different
      obtain ⟨-, found, also, apart⟩ := each other member
      rw [read, also] at same
      obtain rfl := Except.ok.inj same
      exact apart List.mem_cons_self

/-- The listener and the networks of a review that is no Cloudflare one. -/
theorem validateServerIngressReview_eq_ok (accepted : validateServerIngressReview url input = .ok review)
    (scope : review.accessScope ≠ "internet".toList) : ∃ address ip, review.listenAddress = some address ∧
      addressValue address = .ok ip ∧ checkListener review.accessScope ip = .ok ⟨⟩ ∧
      ingressNetworks review.accessScope ip input.allowedNetworks = .ok review.allowedNetworks := by
  simp only [validateServerIngressReview, bind_eq_ok, demand_eq_ok, obtain?_eq_ok] at accepted
  obtain ⟨-, -, -, -, mode, -, own, -, provider, -, rawOrigin, -, origin, -, -, -, accepted⟩ := accepted
  split at accepted
  · simp only [bind_eq_ok, demand_eq_ok] at accepted
    obtain ⟨-, ⟨internet, -⟩, done⟩ := accepted
    cases done
    exact absurd internet scope
  · simp only [bind_eq_ok, demand_eq_ok, obtain?_eq_ok] at accepted
    obtain ⟨-, -, -, -, address, -, ip, read, ⟨⟩, checked, -, -, networks, admitted, lanHttps, -, done⟩ := accepted
    cases done
    exact ⟨address, ip, rfl, read, checked, admitted⟩

theorem lanOnly_of_accepted (accepted : validateServerIngressReview url input = .ok review)
    (lan : review.accessScope = "lan".toList) : ∃ address networks, review.listenAddress = some address ∧
      review.allowedNetworks = some networks ∧ LanOnly address networks := by
  obtain ⟨address, ip, listens, read, checked, admitted⟩ := validateServerIngressReview_eq_ok accepted
    (by rw [lan]; decide)
  rw [lan] at checked admitted
  simp only [checkListener, bind_eq_ok, demand_eq_ok] at checked
  obtain ⟨-, -, -, own, -⟩ := checked
  simp only [ingressNetworks, ↓reduceIte, bind_eq_ok, demand_eq_ok, obtain?_eq_ok] at admitted
  obtain ⟨entries, -, -, -, networks, each, -, included, done⟩ := admitted
  obtain ⟨lanNetworks, different⟩ := checkNetworks_eq_ok each
  refine ⟨address, networks, listens, (Except.ok.inj done).symm, ?_, fun value member => (lanNetworks value member).1,
    different, ?_⟩
  · exact ⟨ip, read, (privateListener_iff (addressValue_lt read)).mp (own trivial)⟩
  · obtain ⟨value, listed, within⟩ := List.any_eq_true.mp included
    refine ⟨value, listed, ?_⟩
    obtain ⟨-, network, known, -⟩ := lanNetworks value listed
    rw [inNetwork, known] at within
    rw [serverIngressContainsAddress, known, read]
    exact congrArg Except.ok within

/-- The loopback addresses. -/
def Loopback (ip : IngressAddress) : Prop :=
  match ip.family with
  | .four => InPrefix 32 (127 * 2 ^ 24) 8 ip.value
  | .six => ip.value = 1

theorem loopback_of_accepted (accepted : validateServerIngressReview url input = .ok review)
    (own : review.accessScope = "local".toList) :
    ∃ address ip, review.listenAddress = some address ∧ addressValue address = .ok ip ∧ Loopback ip := by
  obtain ⟨address, ip, listens, read, checked, -⟩ := validateServerIngressReview_eq_ok accepted (by rw [own]; decide)
  have small := addressValue_lt read
  rw [own] at checked
  simp only [checkListener, bind_eq_ok, demand_eq_ok] at checked
  obtain ⟨-, loopback, -⟩ := checked
  have four : networkValue "127.0.0.0/8".toList = .ok ⟨.four, 127 * 2 ^ 24, 8, prefixMask 32 8⟩ := by decide +kernel
  have six : networkValue "::1/128".toList = .ok ⟨.six, 1, 128, prefixMask 128 128⟩ := by decide +kernel
  have within := loopback trivial
  rw [Bool.or_eq_true, inNetwork_iff four small, inNetwork_iff six small] at within
  refine ⟨address, ip, listens, read, ?_⟩
  obtain ⟨family, value⟩ := ip
  rcases within with ⟨rfl, within⟩ | ⟨rfl, within⟩
  · exact within
  · show value = 1
    simpa [InPrefix, AddressFamily.bits] using within

end Reviews

section Choices

variable {url : UrlParser} {rawOrigin value name : Text} {origin : ParsedUrl} {choice : InterfaceChoice}
  {checked : PrivateAddress} {ip : IngressAddress} {length : Nat}

/-- A LAN review of a choice: its address, its network and nothing else. -/
def lanInput (rawOrigin : Text) (choice : InterfaceChoice) : IngressInput where
  plain := true
  format := some 1
  mode := some "standalone".toList
  publicOrigin := some rawOrigin
  accessScope := some "lan".toList
  tlsProvider := some "custom".toList
  listenAddress := .value choice.address
  allowedNetworks := .value [some choice.network]
  lanHttps := .absent

/-- An origin that a review accepts. -/
structure LanOrigin (url : UrlParser) (rawOrigin : Text) (origin : ParsedUrl) : Prop where
  parsed : ingressOrigin url rawOrigin = .ok origin
  hostname : isIP (bareHostname origin.hostname) ≠ 0 ∨ (bareHostname origin.hostname).length ≤ 253 ∧
    (splitText '.' (bareHostname origin.hostname)).all dnsLabel = true
  port : ¬ (3100 ≤ origin.portNumber ∧ origin.portNumber ≤ 3199)

/-- The choice is accepted as the address and the network of a LAN review. -/
def AcceptedChoice (url : UrlParser) (rawOrigin : Text) (choice : InterfaceChoice) : Prop :=
  ∃ review, validateServerIngressReview url (lanInput rawOrigin choice) = .ok review ∧
    review.accessScope = "lan".toList ∧ review.listenAddress = some choice.address ∧
      review.allowedNetworks = some [choice.network]

theorem numberText_append (front back : Text) :
    numberText 16 (front ++ back) = numberText 16 front * 16 ^ back.length + numberText 16 back := by
  rw [numberText_eq, numberText_eq, numberText_eq, textValue, textValue, textValue, List.reverse_append, List.map_append,
    Nat.ofDigits_append, List.length_map, List.length_reverse]
  ring

/-- The label without its hyphens has the digits of all words. -/
theorem filter_wordsLabel {words : List Nat} (small : SmallWords words) :
    ((wordsLabel words).filter fun c => c ≠ '-') = (words.map wordText).flatten := by
  have plain : ∀ word ∈ words, ((wordText word).filter fun c => c ≠ '-') = wordText word := by
    intro word member
    rw [List.filter_eq_self]
    intro c inside
    exact decide_eq_true (hexLower_ne_hyphen (List.all_eq_true.mp (wordText_spec (small word member)).2.1 c inside))
  unfold wordsLabel
  induction words with
  | nil => rfl
  | cons word rest ih =>
    have first := plain word List.mem_cons_self
    have later := ih (fun other member => small other (List.mem_cons_of_mem _ member)) fun other member =>
      plain other (List.mem_cons_of_mem _ member)
    rw [List.map_cons, List.flatten_cons, ← later]
    cases rest with
    | nil =>
      exact first.trans (List.append_nil _).symm
    | cons second rest =>
      rw [List.map_cons, joinText, List.filter_append, first]
      · rfl
      · exact List.cons_ne_nil _ _

theorem choiceValue_words {words : List Nat} {address : Text} (small : SmallWords words) :
    choiceValue .six ⟨address, wordsLabel words⟩ = joinWords 16 words := by
  show numberText 16 ((wordsLabel words).filter fun c => c ≠ '-') = joinWords 16 words
  rw [filter_wordsLabel small]
  induction words with
  | nil => rfl
  | cons word rest ih =>
    have later := ih fun other member => small other (List.mem_cons_of_mem _ member)
    obtain ⟨-, -, value⟩ := wordText_spec (small word List.mem_cons_self)
    have digits : ∀ words : List Nat, SmallWords words → (words.map wordText).flatten.length = 4 * words.length := by
      intro words small
      induction words with
      | nil => rfl
      | cons word rest ih =>
        rw [List.map_cons, List.flatten_cons, List.length_append, (wordText_spec (small word List.mem_cons_self)).1,
          ih fun other member => small other (List.mem_cons_of_mem _ member), List.length_cons]
        omega
    have power : 16 ^ (4 * rest.length) = 2 ^ (16 * rest.length) := by
      have base : (2 : Nat) ^ 16 = 16 ^ 4 := by decide
      rw [Nat.pow_mul, Nat.pow_mul, base]
    rw [List.map_cons, List.flatten_cons, numberText_append, value, later, joinWords_cons,
      digits rest fun other member => small other (List.mem_cons_of_mem _ member), power]

/-- What a private address makes of itself: a number, which is in the ranges where the text has four digits or is an
IPv4 address. -/
theorem privateAddress_value (accepted : privateAddress value = .ok checked) : ∃ ip,
    addressValue checked.address = .ok ip ∧ (InPrivateRanges ip ↔
      (ipv4? value).isSome = true ∨ (firstGroup value).length = 4) ∧
    ip.family = (if isIP checked.address = 4 then AddressFamily.four else .six) ∧
      choiceValue ip.family checked = ip.value := by
  obtain ⟨zone, ⟨octets, four, own, rfl⟩ | ⟨none, words, six, unique, rfl⟩⟩ := privateAddress_eq_ok accepted
  · obtain ⟨parts, count, small, -⟩ := ipv4?_eq_some four
    have isFour : isIP value = 4 := if_pos (by rw [four]; rfl)
    refine ⟨_, addressValue_four zone four, ?_, ?_, ?_⟩
    · exact iff_of_true ((privateOctets_iff count small).mp own) (.inl (by rw [four]; rfl))
    · rw [if_pos isFour]
    · have again := addressValue_four zone four
      rw [addressValue, if_neg zone, four] at again
      exact congrArg IngressAddress.value (Except.ok.inj again)
  · obtain ⟨eight, small⟩ := ipv6?_eq_some six
    obtain ⟨word, rest, rfl, digits⟩ := words_private zone none six unique
    have plain := ipv4?_of_not_mem (@not_mem_ipv6Hostname '.' (by decide) rfl (word :: rest))
    have isSix : isIP (ipv6Hostname (word :: rest)) ≠ 4 := by
      rw [isIP, plain]
      split
      · next never => cases never
      · split <;> decide
    have zoneless : '%' ∉ ipv6Hostname (word :: rest) := not_mem_ipv6Hostname (by decide) rfl _
    refine ⟨_, addressValue_six zoneless plain (ipv6?_ipv6Hostname eight small), ?_, ?_, ?_⟩
    · have ranged := @privateWords_iff word rest (Nat.succ.inj eight) fun other member =>
        small other (List.mem_cons_of_mem _ member)
      rw [ranged, none, digits]
      exact (or_iff_right Bool.false_ne_true).symm
    · rw [if_neg isSix]
    · exact choiceValue_words small

/-- The listeners in the private ranges pass all checks of a LAN ingress. -/
theorem checkListener_private (small : ip.value < 2 ^ ip.family.bits) (ranged : InPrivateRanges ip) :
    checkListener "lan".toList ip = .ok ⟨⟩ := by
  have outside : ∀ {text : Text} {network : IngressNetwork}, networkValue text = .ok network →
      (network.family = ip.family → ¬ InPrefix ip.family.bits network.value network.length ip.value) →
      (!inNetwork ip text) = true := by
    intro text network read apart
    rw [Bool.not_eq_true', Bool.eq_false_iff, Ne, inNetwork_iff read small]
    exact fun within => apart within.1 within.2
  have unicast : (["0.0.0.0/8", "169.254.0.0/16", "fe80::/10", "224.0.0.0/4", "240.0.0.0/4", "ff00::/8",
      "::ffff:0:0/96"].all fun network => !inNetwork ip network.toList) = true := by
    have zero : networkValue "0.0.0.0/8".toList = .ok ⟨.four, 0, 8, prefixMask 32 8⟩ := by decide +kernel
    have link : networkValue "169.254.0.0/16".toList = .ok ⟨.four, 169 * 2 ^ 24 + 254 * 2 ^ 16, 16, prefixMask 32 16⟩ := by
      decide +kernel
    have local6 : networkValue "fe80::/10".toList = .ok ⟨.six, 0xfe80 * 2 ^ 112, 10, prefixMask 128 10⟩ := by
      decide +kernel
    have multicast : networkValue "224.0.0.0/4".toList = .ok ⟨.four, 224 * 2 ^ 24, 4, prefixMask 32 4⟩ := by
      decide +kernel
    have reserved : networkValue "240.0.0.0/4".toList = .ok ⟨.four, 240 * 2 ^ 24, 4, prefixMask 32 4⟩ := by
      decide +kernel
    have multicast6 : networkValue "ff00::/8".toList = .ok ⟨.six, 0xff00 * 2 ^ 112, 8, prefixMask 128 8⟩ := by
      decide +kernel
    have mapped : networkValue "::ffff:0:0/96".toList = .ok ⟨.six, 0xffff * 2 ^ 32, 96, prefixMask 128 96⟩ := by
      decide +kernel
    obtain ⟨family, value⟩ := ip
    simp only [List.all_cons, List.all_nil, Bool.and_true, Bool.and_eq_true]
    refine ⟨outside zero ?_, outside link ?_, outside local6 ?_, outside multicast ?_, outside reserved ?_,
      outside multicast6 ?_, outside mapped ?_⟩ <;> rintro rfl <;>
      simp only [InPrivateRanges, InPrefix, AddressFamily.bits] at ranged ⊢ <;> omega
  have own := (privateListener_iff small).mpr ranged
  rw [checkListener, demand_of (fun never => absurd never (by decide)), demand_of (fun _ => own),
    demand_of (fun never => absurd never (by decide)), demand_of (.inr unicast)]
  rfl

theorem acceptedChoice_iff (settled : LanOrigin url rawOrigin origin) : AcceptedChoice url rawOrigin choice ↔
    ∃ ip, addressValue choice.address = .ok ip ∧ checkListener "lan".toList ip = .ok ⟨⟩ ∧
      ingressNetworks "lan".toList ip (.value [some choice.network]) = .ok (some [choice.network]) := by
  constructor
  · rintro ⟨review, accepted, lan, listens, networks⟩
    obtain ⟨address, ip, own, read, checked, admitted⟩ := validateServerIngressReview_eq_ok accepted
      (by rw [lan]; decide)
    rw [listens] at own
    cases own
    rw [lan] at checked admitted
    rw [networks] at admitted
    exact ⟨ip, read, checked, admitted⟩
  · rintro ⟨ip, read, checked, admitted⟩
    refine ⟨⟨"standalone".toList, origin.origin, "lan".toList, "custom".toList, some choice.address, none,
      some [choice.network]⟩, ?_, rfl, rfl, rfl⟩
    simp only [validateServerIngressReview, bind_eq_ok, demand_eq_ok, obtain?_eq_ok]
    refine ⟨⟨⟩, rfl, ⟨⟩, rfl, _, rfl, _, rfl, _, rfl, rawOrigin, rfl, origin, settled.parsed, ⟨⟩, .inr (.inl rfl), ?_⟩
    have standalone : "standalone".toList ≠ "cloudflare".toList := by decide
    have custom : "custom".toList ≠ "automatic".toList := by decide
    rw [if_neg standalone]
    simp only [bind_eq_ok, demand_eq_ok, obtain?_eq_ok]
    refine ⟨⟨⟩, ⟨trivial, .inl trivial⟩, ⟨⟩, settled.hostname, choice.address, rfl, ip, read, ⟨⟩, checked, ⟨⟩, settled.port, _,
      admitted, none, ?_, rfl⟩
    rw [ingressLanHttps, if_neg custom]
    rfl

/-- What an entry offers: its address with the network of its prefix, which is not too short. -/
theorem interfaceChoice_eq_some {safeInteger : Text → Option Nat} {entry : InterfaceEntry}
    (offered : interfaceChoice safeInteger name entry = some choice) : ∃ value checked ip length,
      entry.address = some value ∧ privateAddress value = .ok checked ∧ choice.address = checked.address ∧
      addressValue checked.address = .ok ip ∧
      (InPrivateRanges ip ↔ (ipv4? value).isSome = true ∨ (firstGroup value).length = 4) ∧
      length ≤ ip.family.bits ∧ shortestPrefix ip.family checked.address ≤ length ∧
      choice.network = networkText ip.family
        (ip.value / 2 ^ (ip.family.bits - length) * 2 ^ (ip.family.bits - length)) ++ '/' :: toText 10 length := by
  unfold interfaceChoice at offered
  split at offered
  · cases offered
  · obtain ⟨value, there, offered⟩ := Option.bind_eq_some_iff.mp offered
    obtain ⟨checked, own, offered⟩ := Option.bind_eq_some_iff.mp offered
    obtain ⟨rawPrefix, -, offered⟩ := Option.bind_eq_some_iff.mp offered
    obtain ⟨length, -, offered⟩ := Option.bind_eq_some_iff.mp offered
    have accepted : privateAddress value = .ok checked := by
      cases result : privateAddress value with
      | ok checked' =>
        rw [result] at own
        exact congrArg Except.ok (Option.some.inj own)
      | error error =>
        rw [result] at own
        cases own
    obtain ⟨ip, read, ranged, family, number⟩ := privateAddress_value accepted
    rw [← family, number] at offered
    split at offered
    · next bounds =>
      cases offered
      refine ⟨value, checked, ip, length, there, accepted, rfl, read, ranged, bounds.2.1, bounds.2.2, ?_⟩
      rw [Nat.shiftRight_eq_div_pow, Nat.shiftLeft_eq]
    · cases offered

/-- The first octet of an address whose text begins with it. -/
theorem first_octet {first : Text} (read : addressValue value = .ok ip) (four : ip.family = .four)
    (plain : '.' ∉ first) (begins : first ++ ['.'] <+: value) : ip.value / 2 ^ 24 = numberText 10 first := by
  rcases (addressValue_eq_ok read).2 with ⟨octets, octetsRead, rfl⟩ | ⟨-, words, -, rfl⟩
  · obtain ⟨parts, count, small, -⟩ := ipv4?_eq_some octetsRead
    obtain ⟨rest, rfl⟩ := begins
    rw [List.append_assoc, List.singleton_append, splitText_cons_part plain, List.map_cons] at parts
    subst parts
    have three : ((splitText '.' rest).map (numberText 10)).length = 3 := Nat.succ.inj count
    have division : joinWords 8 (numberText 10 first :: (splitText '.' rest).map (numberText 10)) /
        2 ^ (8 * ((splitText '.' rest).map (numberText 10)).length) = numberText 10 first :=
      joinWords_div fun octet member => small octet (List.mem_cons_of_mem _ member)
    rwa [three] at division
  · cases four

/-- A private address with a prefix that is long enough is in a range with no longer one. -/
theorem range_of_choice (read : addressValue value = .ok ip) (ranged : InPrivateRanges ip)
    (enough : shortestPrefix ip.family value ≤ length) : ∃ range ∈ privateRanges ip.family, range.2 ≤ length ∧
      InPrefix ip.family.bits range.1 range.2 ip.value := by
  obtain ⟨range, listed, within⟩ := inPrivateRanges_iff.mp ranged
  cases kind : ip.family with
  | six =>
    rw [kind] at listed within enough
    obtain rfl := List.mem_singleton.mp listed
    exact ⟨_, listed, enough, within⟩
  | four =>
    rw [kind] at listed within enough
    simp only [shortestPrefix] at enough
    split at enough
    · next ten =>
      have first : ip.value / 2 ^ 24 = 10 := @first_octet value ip "10".toList read kind (by decide) ten
      exact ⟨(10 * 2 ^ 24, 8), List.mem_cons_self, enough, by simpa [InPrefix, AddressFamily.bits] using first⟩
    · split at enough
      · next later =>
        have first : ip.value / 2 ^ 24 = 172 := @first_octet value ip "172".toList read kind (by decide) later
        simp only [privateRanges, List.mem_cons, List.not_mem_nil, or_false] at listed
        rcases listed with rfl | rfl | rfl
        · exact ⟨_, List.mem_cons_self, by omega, within⟩
        · exact ⟨_, List.mem_cons_of_mem _ List.mem_cons_self, enough, within⟩
        · simp only [InPrefix, AddressFamily.bits] at within
          omega
      · refine ⟨range, listed, Nat.le_trans ?_ enough, within⟩
        simp only [privateRanges, List.mem_cons, List.not_mem_nil, or_false] at listed
        rcases listed with rfl | rfl | rfl <;> decide

/-- A choice is accepted exactly when the text of its address is one of the private ranges. -/
theorem acceptedChoice_of_interface {safeInteger : Text → Option Nat} {entry : InterfaceEntry}
    (settled : LanOrigin url rawOrigin origin) (offered : interfaceChoice safeInteger name entry = some choice) :
    ∃ value, entry.address = some value ∧ (AcceptedChoice url rawOrigin choice ↔
      (ipv4? value).isSome = true ∨ (firstGroup value).length = 4) := by
  obtain ⟨value, checked, ip, length, there, accepted, address, read, ranged, fits, enough, network⟩ :=
    interfaceChoice_eq_some offered
  have small := addressValue_lt read
  refine ⟨value, there, ?_⟩
  rw [acceptedChoice_iff settled, ← ranged, address]
  constructor
  · rintro ⟨again, same, checks, -⟩
    obtain rfl := Except.ok.inj (read.symm.trans same)
    simp only [checkListener, bind_eq_ok, demand_eq_ok] at checks
    obtain ⟨-, -, -, own, -⟩ := checks
    exact (privateListener_iff small).mp (own trivial)
  · intro own
    refine ⟨ip, read, checkListener_private small own, ?_⟩
    obtain ⟨range, listed, shorter, within⟩ := range_of_choice read own enough
    have cleared := inPrefix_cleared ip.family.bits length ip.value
    have base : ip.value / 2 ^ (ip.family.bits - length) * 2 ^ (ip.family.bits - length) < 2 ^ ip.family.bits :=
      Nat.lt_of_le_of_lt (Nat.div_mul_le_self _ _) small
    have text := networkValue_text base fits (Nat.dvd_mul_left _ _)
    rw [← network] at text
    have isPrivate := (privateNetwork_iff (networkValue_eq_ok text).1.small).mpr
      ⟨range, listed, shorter, within.trans shorter cleared.symm⟩
    have checks : checkNetworks [] [some choice.network] = .ok [choice.network] := by
      simp only [checkNetworks, bind_eq_ok, demand_eq_ok, obtain?_eq_ok]
      exact ⟨_, rfl, _, text, ⟨⟩, isPrivate, ⟨⟩, rfl, [], rfl, rfl⟩
    have included : [choice.network].any (inNetwork ip) = true := by
      rw [List.any_cons, (inNetwork_iff text small).mpr ⟨rfl, cleared⟩]
      rfl
    simp only [ingressNetworks, ↓reduceIte, bind_eq_ok, demand_eq_ok, obtain?_eq_ok]
    exact ⟨_, rfl, ⟨⟩, ⟨Nat.le_refl 1, Nat.le_of_ble_eq_true rfl⟩, _, checks, ⟨⟩, included, rfl⟩

/-- A choice that is returned was offered by an entry of the inventory. -/
theorem mem_collectChoices {result choices : List InterfaceChoice} (member : choice ∈ collectChoices result choices) :
    choice ∈ result ∨ choice ∈ choices := by
  induction choices generalizing result with
  | nil => exact .inl member
  | cons first rest ih =>
    obtain ⟨next, shape⟩ : ∃ next, next = if result.any fun other => other.address = first.address then result
      else result ++ [first] := ⟨_, rfl⟩
    have step : choice ∈ next → choice ∈ result ∨ choice ∈ first :: rest := by
      intro there
      rw [shape] at there
      split at there
      · exact .inl there
      · rcases List.mem_append.mp there with before | new
        · exact .inl before
        · exact .inr (List.mem_singleton.mp new ▸ List.mem_cons_self)
    rw [collectChoices, ← shape] at member
    split at member
    · exact step member
    · rcases ih member with before | later
      · exact step before
      · exact .inr (List.mem_cons_of_mem _ later)

theorem mem_lanHttpsInterfaceChoices {safeInteger : Text → Option Nat} {interfaces : InterfaceInventory}
    (member : choice ∈ lanHttpsInterfaceChoices safeInteger interfaces) : ∃ name entries entry,
      (name, some entries) ∈ interfaces ∧ some entry ∈ entries ∧ interfaceChoice safeInteger name entry = some choice := by
  rcases mem_collectChoices member with never | offered
  · cases never
  · obtain ⟨⟨name, entries⟩, listed, offered⟩ := List.mem_flatMap.mp offered
    obtain ⟨entry, inside, made⟩ := List.mem_filterMap.mp offered
    obtain ⟨entry, rfl, made⟩ := Option.bind_eq_some_iff.mp made
    cases entries with
    | none => simp at inside
    | some entries =>
      exact ⟨name, entries, entry, List.mem_of_mem_take listed, List.mem_of_mem_take inside, made⟩

/-- A LAN ingress admits private clients only and a local one listens at loopback; a choice of the interfaces is
accepted exactly when its entry has an IPv4 address, or an IPv6 address with four digits before the first colon. -/
theorem ingress_private {safeInteger : Text → Option Nat} {interfaces : InterfaceInventory}
    (settled : LanOrigin url rawOrigin origin) :
    (∀ input review, validateServerIngressReview url input = .ok review → review.accessScope = "lan".toList →
      ∃ address networks, review.listenAddress = some address ∧ review.allowedNetworks = some networks ∧
        LanOnly address networks) ∧
    (∀ input review, validateServerIngressReview url input = .ok review → review.accessScope = "local".toList →
      ∃ address ip, review.listenAddress = some address ∧ addressValue address = .ok ip ∧ Loopback ip) ∧
    ∀ choice ∈ lanHttpsInterfaceChoices safeInteger interfaces, ∃ name entries entry value,
      (name, some entries) ∈ interfaces ∧ some entry ∈ entries ∧ interfaceChoice safeInteger name entry = some choice ∧
        entry.address = some value ∧ (AcceptedChoice url rawOrigin choice ↔
          (ipv4? value).isSome = true ∨ (firstGroup value).length = 4) := by
  refine ⟨fun _ _ => lanOnly_of_accepted, fun _ _ => loopback_of_accepted, fun choice member => ?_⟩
  obtain ⟨name, entries, entry, listed, inside, made⟩ := mem_lanHttpsInterfaceChoices member
  obtain ⟨value, there, accepted⟩ := acceptedChoice_of_interface settled made
  exact ⟨name, entries, entry, value, listed, inside, made, there, accepted⟩

/-- An origin in a LAN, and a parser that knows it alone. -/
def latexLan : ParsedUrl :=
  ⟨"https:".toList, [], [], "latex.lan".toList, [], ['/'], [], [], "https://latex.lan".toList⟩

def latexLanUrl : UrlParser := fun text => if text = "https://latex.lan".toList then some latexLan else none

/-- `Number`, of decimal digits. -/
def decimalNumber (text : Text) : Option Nat :=
  if text ≠ [] ∧ text.all Char.isDigit = true then some (numberText 10 text) else none

theorem latexLan_accepted : LanOrigin latexLanUrl "https://latex.lan".toList latexLan where
  parsed := by decide +kernel
  hostname := by decide +kernel
  port := by decide +kernel

/-- The address of an interface is accepted with its network. -/
theorem ingress_private_eth0 : AcceptedChoice latexLanUrl "https://latex.lan".toList
    ⟨"eth0".toList, "192.168.1.5".toList, "192.168.1.0/24".toList⟩ := by
  have offered : (⟨"eth0".toList, "192.168.1.5".toList, "192.168.1.0/24".toList⟩ : InterfaceChoice) ∈
      lanHttpsInterfaceChoices decimalNumber [("eth0".toList,
        some [some ⟨false, some "192.168.1.5".toList, some "192.168.1.5/24".toList⟩])] := by decide +kernel
  obtain ⟨name, entries, entry, value, listed, inside, -, there, accepted⟩ :=
    (ingress_private latexLan_accepted).2.2 _ offered
  cases List.mem_singleton.mp listed
  cases List.mem_singleton.mp inside
  cases there
  exact accepted.mpr (.inl (by decide +kernel))

/-- The text `fc::1` of an interface is offered, but not accepted. -/
theorem lanHttpsInterfaceChoices_short :
    (⟨"eth0".toList, "fc::1".toList, "fc::/64".toList⟩ : InterfaceChoice) ∈ lanHttpsInterfaceChoices decimalNumber
      [("eth0".toList, some [some ⟨false, some "fc::1".toList, some "fc::1/64".toList⟩])] ∧
    ¬ AcceptedChoice latexLanUrl "https://latex.lan".toList ⟨"eth0".toList, "fc::1".toList, "fc::/64".toList⟩ := by
  have offered : interfaceChoice decimalNumber "eth0".toList ⟨false, some "fc::1".toList, some "fc::1/64".toList⟩ =
      some ⟨"eth0".toList, "fc::1".toList, "fc::/64".toList⟩ := by decide +kernel
  refine ⟨by decide +kernel, fun accepted => ?_⟩
  obtain ⟨value, there, whole⟩ := acceptedChoice_of_interface latexLan_accepted offered
  cases there
  exact absurd (whole.mp accepted) (by decide +kernel)

end Choices

end LatexRenderer
