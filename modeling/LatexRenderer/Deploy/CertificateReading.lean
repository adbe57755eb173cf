import LatexRenderer.Model.Deploy.CertificateId

/-! # Certificates in DER

A certificate is encoded with definite lengths, and the walk finds each of its elements where the encoding put it:
the serial number after the version, and the key identifier in the Authority Key Identifier, wherever that stands
among the extensions.
-/

namespace LatexRenderer

open Machine

section Encoding

/-- The length octets of DER. -/
def derLength (length : Nat) : Octets :=
  if length < 128 then [UInt8.ofNat length]
  else UInt8.ofNat (128 + (octetsOf length).length) :: octetsOf length

/-- A DER element. -/
def der (tag : UInt8) (content : Octets) : Octets := tag :: (derLength content.length ++ content)

/-- DER elements, one after the other. -/
def derAll {α : Type} (code : α → UInt8 × Octets) (elements : List α) : Octets :=
  elements.flatMap fun element => der (code element).1 (code element).2

/-- The Authority Key Identifier of RFC 5280; every field is optional. -/
structure AuthorityKey where
  keyIdentifier : Option Octets
  authorityCertIssuer : Option Octets
  authorityCertSerialNumber : Option Octets

/-- The value of an Authority Key Identifier. -/
def AuthorityKey.elements (key : AuthorityKey) : List (UInt8 × Octets) :=
  (key.keyIdentifier.map (0x80, ·)).toList ++ (key.authorityCertIssuer.map (0xa1, ·)).toList ++
    (key.authorityCertSerialNumber.map (0x82, ·)).toList

/-- An extension; its critical flag is written when it is set. -/
inductive Extension where
  | authorityKey (critical : Bool) (key : AuthorityKey)
  | other (oid : Octets) (critical : Bool) (value : Octets) (different : oid ≠ authorityKeyOid)

/-- The critical flag, which is false by default. -/
def criticalFlag (critical : Bool) : Octets := if critical then der 1 [0xff] else []

/-- The content of an extension. -/
def Extension.content : Extension → Octets
  | .authorityKey critical key =>
    der 6 authorityKeyOid ++ (criticalFlag critical ++ der 4 (der 0x30 (derAll id key.elements)))
  | .other oid critical value _ => der 6 oid ++ (criticalFlag critical ++ der 4 value)

/-- Whether this is the Authority Key Identifier. -/
def Extension.isAuthorityKey : Extension → Bool
  | .authorityKey _ _ => true
  | .other _ _ _ _ => false

/-- The key identifier that an extension has. -/
def Extension.keyIdentifier? : Extension → Option Octets
  | .authorityKey _ key => key.keyIdentifier
  | .other _ _ _ _ => none

/-- The content of a positive INTEGER: the shortest octets with the sign bit clear. -/
structure PositiveInteger (content : Octets) : Prop where
  sign : ∃ first, content.head? = some first ∧ first.toNat < 128
  shortest : content.head? = some 0 → ∃ second rest, content = 0 :: second :: rest ∧ 128 ≤ second.toNat

/-- A certificate of RFC 5280, as far as its encoding goes; every extension occurs once. -/
structure Certificate where
  version : Option Octets
  serialNumber : Octets
  positive : PositiveInteger serialNumber
  signature : Octets
  issuer : Octets
  validity : Octets
  subject : Octets
  subjectPublicKeyInfo : Octets
  issuerUniqueID : Option Octets
  subjectUniqueID : Option Octets
  extensions : List Extension
  once : (extensions.filter (·.isAuthorityKey)).length ≤ 1
  signatureAlgorithm : Octets
  signatureValue : Octets

/-- The extensions field. -/
def Certificate.extensionElements (certificate : Certificate) : List (UInt8 × Octets) :=
  if certificate.extensions = [] then []
  else [(0xa3, der 0x30 (derAll (fun extension => (0x30, extension.content)) certificate.extensions))]

/-- The fields after the serial number. -/
def Certificate.fields (certificate : Certificate) : List (UInt8 × Octets) :=
  [(0x30, certificate.signature), (0x30, certificate.issuer), (0x30, certificate.validity), (0x30, certificate.subject),
    (0x30, certificate.subjectPublicKeyInfo)] ++ (certificate.issuerUniqueID.map (0x81, ·)).toList ++
    (certificate.subjectUniqueID.map (0x82, ·)).toList ++ certificate.extensionElements

/-- The version field. -/
def Certificate.versionField (certificate : Certificate) : Octets :=
  (certificate.version.map (der 0xa0)).getD []

/-- The content of the part that is signed. -/
def Certificate.tbsContent (certificate : Certificate) : Octets :=
  certificate.versionField ++ (der 2 certificate.serialNumber ++ derAll id certificate.fields)

/-- The DER encoding. -/
def Certificate.encode (certificate : Certificate) : Octets :=
  der 0x30 (der 0x30 certificate.tbsContent ++
    (der 0x30 certificate.signatureAlgorithm ++ der 3 certificate.signatureValue))

/-- The key identifier of the Authority Key Identifier. -/
def Certificate.keyIdentifier? (certificate : Certificate) : Option Octets :=
  certificate.extensions.findSome? (·.keyIdentifier?)

/-- The key identifier, when it has a length that is used. -/
def Certificate.usableKey? (certificate : Certificate) : Option Octets :=
  certificate.keyIdentifier?.filter fun key => 1 ≤ key.length ∧ key.length ≤ 64

end Encoding

section Reading

variable {data : Octets} {offset : Nat}

theorem octetAt_of {octet : UInt8} (stands : data[offset]? = some octet) : octetAt data offset = .ok octet := by
  rw [octetAt, stands]
  rfl

theorem lengthOctets_of {octets : Octets} (stands : StandsAt data offset octets) (value : Nat) :
    lengthOctets data octets.length offset value =
      .ok (octets.foldl (fun value octet => value * 256 + octet.toNat) value) := by
  induction octets generalizing offset value with
  | nil => rfl
  | cons octet rest ih =>
    obtain ⟨here, later⟩ := standsAt_cons.mp stands
    rw [List.length_cons, lengthOctets, octetAt_of here, ok_bind, ih later]
    rfl

/-- The length octets are read as the length, if it fits in four octets. -/
theorem itemLength_of (stop : Nat) {length : Nat} {first : UInt8} {rest : Octets} (fits : length < 256 ^ 4)
    (octets : derLength length = first :: rest) (stands : StandsAt data offset rest)
    (within : offset + rest.length ≤ stop) :
    itemLength data first offset stop = .ok (length, offset + rest.length) := by
  unfold derLength at octets
  split at octets
  · next short =>
    cases octets
    have value : (UInt8.ofNat length).toNat = length := by
      rw [UInt8.toNat_ofNat']
      omega
    rw [itemLength, value, if_pos short]
    rfl
  · next long =>
    cases octets
    have few := length_octetsOf_le fits
    have some : 0 < (octetsOf length).length := length_octetsOf_pos (by omega)
    have value : (UInt8.ofNat (128 + (octetsOf length).length)).toNat = 128 + (octetsOf length).length := by
      rw [UInt8.toNat_ofNat']
      omega
    have count : (128 + (octetsOf length).length) % 128 = (octetsOf length).length := by omega
    have known : 1 ≤ (octetsOf length).length ∧ (octetsOf length).length ≤ 4 ∧
        offset + (octetsOf length).length ≤ stop := ⟨some, few, within⟩
    rw [itemLength, value, if_neg (by omega)]
    simp only [count, demand_of known, ok_bind, lengthOctets_of stands]
    rw [show (octetsOf length).foldl (fun value octet => value * 256 + octet.toNat) 0 = length from
      bigEndian_octetsOf length]
    rfl

theorem derLength_cons (length : Nat) : ∃ first rest, derLength length = first :: rest := by
  unfold derLength
  split
  · exact ⟨_, _, rfl⟩
  · exact ⟨_, _, rfl⟩

theorem item_der (stop : Nat) {tag : UInt8} {content : Octets} (stands : StandsAt data offset (der tag content))
    (fits : data.length < 256 ^ 4) (within : offset + (der tag content).length ≤ stop) :
    ∃ start, item data offset stop = .ok ⟨tag, start, start + content.length⟩ ∧
      start + content.length = offset + (der tag content).length ∧ StandsAt data start content := by
  obtain ⟨first, rest, octets⟩ := derLength_cons content.length
  have bound := stands.bound (List.cons_ne_nil _ _)
  obtain ⟨tagged, stands⟩ := standsAt_cons.mp stands
  obtain ⟨lengths, stands⟩ := standsAt_append.mp stands
  rw [octets] at lengths stands
  obtain ⟨head, lengths⟩ := standsAt_cons.mp lengths
  simp only [der, octets, List.cons_append, List.length_cons, List.length_append] at bound within ⊢
  simp only [List.length_cons] at stands
  have start : offset + 1 + 1 + rest.length + content.length = offset + (rest.length + content.length + 1 + 1) := by
    omega
  refine ⟨offset + 2 + rest.length, ?_, by omega, ?_⟩
  · have room : offset + 2 ≤ stop := by omega
    have inside : offset + 2 + rest.length + content.length ≤ stop := by omega
    have length := itemLength_of stop (by omega) octets lengths (by omega)
    rw [item, demand_of room, ok_bind, octetAt_of tagged, ok_bind, octetAt_of head, ok_bind, length, ok_bind]
    simp only [demand_of inside, ok_bind]
    rfl
  · have same : offset + 1 + (rest.length + 1) = offset + 2 + rest.length := by omega
    exact same ▸ stands

variable {σ α : Type} {visit : σ → DerItem → Except DerFailure σ} {code : α → UInt8 × Octets} {effect : σ → α → σ}
  {elements : List α}

/-- A loop over elements visits each of them where it stands. -/
theorem walk_derAll (fits : data.length < 256 ^ 4)
    (visits : ∀ element ∈ elements, ∀ state start, StandsAt data start (code element).2 →
      visit state ⟨(code element).1, start, start + (code element).2.length⟩ = .ok (effect state element))
    {fuel : Nat} (enough : (derAll code elements).length < fuel) (stands : StandsAt data offset (derAll code elements))
    (state : σ) :
    walk data (offset + (derAll code elements).length) visit fuel offset state = .ok (elements.foldl effect state) := by
  induction elements generalizing fuel offset state with
  | nil =>
    cases fuel with
    | zero => omega
    | succ fuel =>
      have none : ¬ offset < offset + (derAll code []).length := Nat.lt_irrefl offset
      rw [walk, if_neg none]
      rfl
  | cons element rest ih =>
    cases fuel with
    | zero => omega
    | succ fuel =>
      have whole : derAll code (element :: rest) = der (code element).1 (code element).2 ++ derAll code rest := rfl
      rw [whole, List.length_append] at enough ⊢
      rw [whole] at stands
      obtain ⟨here, later⟩ := standsAt_append.mp stands
      have positive : 0 < (der (code element).1 (code element).2).length := Nat.succ_pos _
      obtain ⟨start, read, ends, content⟩ := item_der _ here fits
        (by omega : _ ≤ offset + ((der (code element).1 (code element).2).length + (derAll code rest).length))
      have shorter : (derAll code rest).length < fuel := by omega
      have tail := ih (fun other member => visits other (List.mem_cons_of_mem _ member)) shorter later
        (effect state element)
      rw [walk, if_pos (by omega), read, ok_bind, visits element List.mem_cons_self state start content, ok_bind]
      dsimp only
      rw [ends, ← Nat.add_assoc, tail]
      rfl

theorem forItems_derAll {stop : Nat} (fits : data.length < 256 ^ 4)
    (visits : ∀ element ∈ elements, ∀ state start, StandsAt data start (code element).2 →
      visit state ⟨(code element).1, start, start + (code element).2.length⟩ = .ok (effect state element))
    (stands : StandsAt data offset (derAll code elements)) (ends : stop = offset + (derAll code elements).length)
    (state : σ) : forItems data offset stop visit state = .ok (elements.foldl effect state) := by
  subst ends
  rw [forItems, Nat.add_sub_cancel_left]
  exact walk_derAll fits visits (Nat.lt_succ_self _) stands state

end Reading

section Certificates

variable {data : Octets}

/-- What one element of an Authority Key Identifier says about the key identifier. -/
def keyEffect (aki : Option Octets) (element : UInt8 × Octets) : Option Octets :=
  if element.1 = 0x80 then some element.2 else aki

theorem visitKey_of (aki : Option Octets) (element : UInt8 × Octets) {start : Nat}
    (stands : StandsAt data start element.2) :
    visitKey data aki ⟨element.1, start, start + element.2.length⟩ = .ok (keyEffect aki element) := by
  rw [visitKey, stands.slice_eq]
  rfl

theorem foldl_keyEffect (key : AuthorityKey) (aki : Option Octets) :
    key.elements.foldl keyEffect aki = key.keyIdentifier.or aki := by
  obtain ⟨identifier, issuer, serial⟩ := key
  cases identifier <;> cases issuer <;> cases serial <;> rfl

/-- The value of an extension is found after the flag. -/
theorem extensionValue_of (oid extension : DerItem) {critical : Bool} {value : Octets} (fits : data.length < 256 ^ 4)
    (stands : StandsAt data oid.stop (criticalFlag critical ++ der 4 value))
    (ends : extension.stop = oid.stop + (criticalFlag critical ++ der 4 value).length) :
    ∃ start, extensionValue data oid extension = .ok ⟨4, start, start + value.length⟩ ∧
      StandsAt data start value := by
  obtain ⟨flag, stands⟩ := standsAt_append.mp stands
  rw [List.length_append] at ends
  cases critical with
  | false =>
    have empty : (criticalFlag false).length = 0 := rfl
    rw [empty] at ends stands
    obtain ⟨start, read, _, content⟩ := item_der extension.stop stands fits (by omega)
    refine ⟨start, ?_, content⟩
    rw [extensionValue, ← Nat.add_zero oid.stop, read, ok_bind]
    rfl
  | true =>
    obtain ⟨start, read, flagged, _⟩ := item_der extension.stop flag fits
      (by simp only [criticalFlag, if_true] at ends ⊢; omega)
    have next : start + 1 = oid.stop + (criticalFlag true).length := flagged
    rw [← next] at stands
    obtain ⟨later, readLater, _, content⟩ := item_der extension.stop stands fits (by omega)
    refine ⟨later, ?_, content⟩
    rw [extensionValue, read, ok_bind]
    exact readLater

/-- What an extension says about the key identifier. -/
def extensionEffect (aki : Option Octets) (extension : Extension) : Option Octets := extension.keyIdentifier?.or aki

theorem visitExtension_of (fits : data.length < 256 ^ 4) (aki : Option Octets) (extension : Extension) {start : Nat}
    (stands : StandsAt data start extension.content) :
    visitExtension data aki ⟨0x30, start, start + extension.content.length⟩ =
      .ok (extensionEffect aki extension) := by
  cases extension with
  | other oid critical value different =>
    rw [Extension.content] at stands ⊢
    obtain ⟨named, _⟩ := standsAt_append.mp stands
    obtain ⟨begins, read, _, content⟩ := item_der _ named fits (Nat.add_le_add_left
      (by rw [List.length_append]; exact Nat.le_add_right _ _ : _ ≤ (der 6 oid ++ (criticalFlag critical ++ der 4 value)).length) start)
    rw [visitExtension, read, ok_bind, if_pos (.inr (by rw [content.slice_eq]; exact different))]
    rfl
  | authorityKey critical key =>
    rw [Extension.content] at stands ⊢
    obtain ⟨named, stands⟩ := standsAt_append.mp stands
    obtain ⟨begins, read, ends, content⟩ := item_der _ named fits (Nat.add_le_add_left
      (by rw [List.length_append]; exact Nat.le_add_right _ _ : _ ≤ (der 6 authorityKeyOid ++
        (criticalFlag critical ++ der 4 (der 0x30 (derAll id key.elements)))).length) start)
    rw [← ends] at stands
    have same : ¬ ((6 : UInt8) ≠ 6 ∨ slice data begins (begins + authorityKeyOid.length) ≠ authorityKeyOid) := by
      rw [content.slice_eq]
      simp
    rw [visitExtension, read, ok_bind, if_neg same]
    obtain ⟨value, readValue, contentValue⟩ := extensionValue_of
      ⟨6, begins, begins + authorityKeyOid.length⟩
      ⟨0x30, start, start + (der 6 authorityKeyOid ++
        (criticalFlag critical ++ der 4 (der 0x30 (derAll id key.elements)))).length⟩ fits stands
      (by simp only [List.length_append] at ends ⊢; omega)
    obtain ⟨keys, readKeys, _, contentKeys⟩ := item_der _ contentValue fits (Nat.le_refl _)
    rw [readValue, ok_bind, demand_of rfl, ok_bind, readKeys, ok_bind]
    have visited := forItems_derAll fits (fun element _ state start stands => visitKey_of state (id element) stands)
      contentKeys rfl aki
    exact visited.trans (congrArg Except.ok (foldl_keyEffect key aki))

theorem foldl_others {extensions : List Extension} (others : extensions.filter (·.isAuthorityKey) = [])
    (aki : Option Octets) :
    extensions.foldl extensionEffect aki = aki ∧ extensions.findSome? (·.keyIdentifier?) = none := by
  induction extensions generalizing aki with
  | nil => exact ⟨rfl, rfl⟩
  | cons extension rest ih =>
    cases extension with
    | authorityKey critical key => cases others
    | other oid critical value different => exact ih others aki

theorem foldl_extensionEffect {extensions : List Extension}
    (once : (extensions.filter (·.isAuthorityKey)).length ≤ 1) (aki : Option Octets) :
    extensions.foldl extensionEffect aki = (extensions.findSome? (·.keyIdentifier?)).or aki := by
  induction extensions generalizing aki with
  | nil => rfl
  | cons extension rest ih =>
    cases extension with
    | other oid critical value different => exact ih once aki
    | authorityKey critical key =>
      have others : rest.filter (·.isAuthorityKey) = [] := by
        apply List.eq_nil_of_length_eq_zero
        rw [List.filter_cons_of_pos rfl, List.length_cons] at once
        omega
      obtain ⟨kept, none⟩ := foldl_others others (key.keyIdentifier.or aki)
      rw [List.foldl_cons, List.findSome?_cons, none]
      refine kept.trans ?_
      cases same : key.keyIdentifier <;> simp [Extension.keyIdentifier?, same]

/-- What a field says about the key identifier. -/
def fieldEffect (certificate : Certificate) (aki : Option Octets) (field : UInt8 × Octets) : Option Octets :=
  if field.1 = 0xa3 then certificate.extensions.foldl extensionEffect aki else aki

theorem mem_fields {certificate : Certificate} {field : UInt8 × Octets} (member : field ∈ certificate.fields) :
    field.1 ≠ 0xa3 ∨
      field = (0xa3, der 0x30 (derAll (fun extension => (0x30, extension.content)) certificate.extensions)) := by
  simp only [Certificate.fields, List.mem_append, List.mem_cons, List.not_mem_nil, or_false, Option.mem_toList,
    Option.map_eq_some_iff] at member
  rcases member with (((rfl | rfl | rfl | rfl | rfl) | ⟨_, _, rfl⟩) | ⟨_, _, rfl⟩) | member
  case inr =>
    unfold Certificate.extensionElements at member
    split at member
    · cases member
    · exact .inr (List.mem_singleton.mp member)
  all_goals
    left
    dsimp only
    decide

theorem visitField_of (fits : data.length < 256 ^ 4) (certificate : Certificate) (aki : Option Octets)
    {field : UInt8 × Octets} (member : field ∈ certificate.fields) {start : Nat} (stands : StandsAt data start field.2) :
    visitField data aki ⟨field.1, start, start + field.2.length⟩ = .ok (fieldEffect certificate aki field) := by
  rcases mem_fields member with different | rfl
  · rw [visitField, if_pos different, fieldEffect, if_neg different]
  · obtain ⟨sequence, read, _, content⟩ := item_der _ stands fits (Nat.le_refl _)
    rw [visitField, if_neg (not_not.mpr rfl), read, ok_bind]
    exact forItems_derAll fits (fun extension _ state start stands => visitExtension_of fits state extension stands)
      content rfl aki

theorem foldl_fieldEffect (certificate : Certificate) :
    certificate.fields.foldl (fieldEffect certificate) none = certificate.keyIdentifier? := by
  have extensions : certificate.extensionElements.foldl (fieldEffect certificate) none =
      certificate.extensions.foldl extensionEffect none := by
    unfold Certificate.extensionElements
    split
    · next empty => rw [empty]; rfl
    · rfl
  have fields : certificate.fields.foldl (fieldEffect certificate) none =
      certificate.extensionElements.foldl (fieldEffect certificate) none := by
    rw [Certificate.fields, List.foldl_append]
    cases certificate.issuerUniqueID <;> cases certificate.subjectUniqueID <;> rfl
  rw [fields, extensions, foldl_extensionEffect certificate.once, Option.or_none]
  rfl

/-- The serial number is found after the version. -/
theorem serialItem_of (fits : data.length < 256 ^ 4) (certificate : Certificate) {start : Nat} {rest : Octets}
    (stands : StandsAt data start (certificate.versionField ++ (der 2 certificate.serialNumber ++ rest))) :
    ∃ serial, serialItem data ⟨0x30, start, start +
        (certificate.versionField ++ (der 2 certificate.serialNumber ++ rest)).length⟩ =
          .ok ⟨2, serial, serial + certificate.serialNumber.length⟩ ∧
      StandsAt data serial certificate.serialNumber ∧
      StandsAt data (serial + certificate.serialNumber.length) rest ∧
      serial + certificate.serialNumber.length + rest.length =
        start + (certificate.versionField ++ (der 2 certificate.serialNumber ++ rest)).length := by
  obtain ⟨version, stands⟩ := standsAt_append.mp stands
  obtain ⟨number, later⟩ := standsAt_append.mp stands
  simp only [List.length_append]
  obtain ⟨serial, read, ends, content⟩ := item_der
    (start + (certificate.versionField.length + ((der 2 certificate.serialNumber).length + rest.length))) number fits
    (by omega)
  rw [← ends] at later
  refine ⟨serial, ?_, content, later, by omega⟩
  unfold Certificate.versionField at version read ends ⊢
  cases same : certificate.version with
  | none =>
    simp only [same, Option.map_none, Option.getD_none, List.length_nil, Nat.add_zero] at read
    simp only [serialItem, Option.map_none, Option.getD_none, List.length_nil, read, ok_bind]
    rfl
  | some content =>
    simp only [same, Option.map_some, Option.getD_some] at version read ⊢
    obtain ⟨first, readVersion, next, _⟩ := item_der
      (start + ((der 0xa0 content).length + ((der 2 certificate.serialNumber).length + rest.length))) version fits
      (by omega)
    rw [← next] at read
    rw [serialItem, readVersion, ok_bind]
    exact read

theorem certificateIdOf_encode (certificate : Certificate) (small : certificate.encode.length ≤ 524288) :
    certificateIdOf certificate.encode = .ok (certificate.usableKey?.map fun key =>
      certificateIdentifier key (unsignedOctets certificate.serialNumber)) := by
  have fits : certificate.encode.length < 256 ^ 4 := by omega
  obtain ⟨outer, readOuter, endsOuter, content⟩ :=
    item_der certificate.encode.length (standsAt_self certificate.encode) fits (Nat.zero_add _).le
  obtain ⟨signed, _⟩ := standsAt_append.mp content
  obtain ⟨tbs, readTbs, endsTbs, content⟩ := item_der (outer + (der 0x30 certificate.tbsContent ++
    (der 0x30 certificate.signatureAlgorithm ++ der 3 certificate.signatureValue)).length) signed fits
    (by rw [List.length_append]; omega)
  obtain ⟨serial, readSerial, number, rest, ends⟩ := serialItem_of fits certificate content
  obtain ⟨first, head, sign⟩ := certificate.positive.sign
  obtain ⟨later, shape⟩ := List.head?_eq_some_iff.mp head
  have begins : certificate.encode[serial]? = some first := by
    rw [shape] at number
    exact (standsAt_cons.mp number).1
  have positive : serial ≠ serial + certificate.serialNumber.length := by
    rw [shape, List.length_cons]
    omega
  have walked := forItems_derAll fits
    (fun field member state start stands => visitField_of fits certificate state member stands) rest ends.symm none
  unfold certificateIdOf
  rw [demand_of small, ok_bind, readOuter, ok_bind]
  dsimp only
  rw [readTbs, ok_bind, demand_of ⟨rfl, rfl⟩, ok_bind, Certificate.tbsContent, readSerial, ok_bind,
    demand_of ⟨rfl, positive⟩, ok_bind]
  dsimp only
  rw [octetAt_of begins, ok_bind, demand_of sign, ok_bind, walked, ok_bind]
  rw [foldl_fieldEffect, number.slice_eq, Certificate.usableKey?]
  cases certificate.keyIdentifier? with
  | none => rfl
  | some key =>
    by_cases usable : 1 ≤ key.length ∧ key.length ≤ 64
    · rw [Option.bind_some, if_pos usable, Option.filter_some, if_pos (decide_eq_true usable)]
      rfl
    · rw [Option.bind_some, if_neg usable, Option.filter_some, if_neg fun kept => usable (of_decide_eq_true kept)]
      rfl

end Certificates

end LatexRenderer
