import LatexRenderer.Deploy.CertificateId
import LatexRenderer.Model.PageCursors

/-! # Round trips of page cursors

A cursor that the encoder takes is read back where it has no property named like the version and its JSON text has no
more than 768 octets, of which the token has 1024 digits. A cursor that the decoder accepts is encoded again where its
names and values are ones that the encoder takes.
-/

namespace LatexRenderer

open Machine

/-! ## Base64 -/

section Base64

theorem base64Value_base64Char {value : Nat} (small : value < 64) : base64Value (base64Char value) = value := by
  have distinct : base64Alphabet.Nodup := by decide
  have length : base64Alphabet.length = 64 := by decide
  rw [base64Value, base64Char, List.getD_eq_getElem _ _ (by omega), distinct.idxOf_getElem]

theorem octet_of_digits {octet : UInt8} {value : Nat} (same : value = octet.toNat) : UInt8.ofNat value = octet := by
  rw [same, UInt8.ofNat_toNat]

theorem base64urlOctets_base64url (octets : Octets) : base64urlOctets (base64url octets) = octets := by
  induction octets using base64url.induct with
  | case1 => rfl
  | case2 a =>
    have first := a.toNat_lt
    rw [base64url, base64urlOctets, base64Value_base64Char (by omega), base64Value_base64Char (by omega)]
    congr 1
    exact octet_of_digits (by omega)
  | case3 a b =>
    have first := a.toNat_lt
    have second := b.toNat_lt
    rw [base64url, base64urlOctets, base64Value_base64Char (by omega), base64Value_base64Char (by omega),
      base64Value_base64Char (by omega)]
    congr 1
    · exact octet_of_digits (by omega)
    · congr 1
      exact octet_of_digits (by omega)
  | case4 a b c rest ih =>
    have first := a.toNat_lt
    have second := b.toNat_lt
    have third := c.toNat_lt
    rw [base64url, base64urlOctets, base64Value_base64Char (by omega), base64Value_base64Char (by omega),
      base64Value_base64Char (by omega), base64Value_base64Char (by omega), ih]
    congr 1
    · exact octet_of_digits (by omega)
    · congr 1
      · exact octet_of_digits (by omega)
      · congr 1
        exact octet_of_digits (by omega)

theorem length_base64url (octets : Octets) : (base64url octets).length = (4 * octets.length + 2) / 3 := by
  induction octets using base64url.induct with
  | case1 => rfl
  | case2 a => simp [base64url]
  | case3 a b => simp [base64url]
  | case4 a b c rest ih =>
    simp only [base64url, List.length_cons, ih]
    omega

theorem length_utf16_digits {token : Text} (digits : ∀ c ∈ token, c ∈ base64Alphabet) :
    (token.flatMap charUnits).length = token.length := by
  have all : base64Alphabet.all (fun c => decide ((charUnits c).length = 1)) = true := by decide
  induction token with
  | nil => rfl
  | cons c rest ih =>
    have narrow := of_decide_eq_true (List.all_eq_true.mp all c (digits c List.mem_cons_self))
    rw [List.flatMap_cons, List.length_append, narrow,
      ih fun d there => digits d (List.mem_cons_of_mem _ there), List.length_cons, Nat.add_comm]

end Base64

namespace PageCursor

variable {cursor : PageCursor} {keys : List Units} {key text : Units} {token : Text}

/-- A cursor has these names and no others. -/
def HasKeys (cursor : PageCursor) (keys : List Units) : Prop := ∀ key, key ∈ cursor.names ↔ key ∈ keys

/-- A token is read as a cursor. -/
def DecodesTo (token : Text) (keys : List Units) (cursor : PageCursor) : Prop :=
  ∃ read, decodePageCursor (some token) keys = .ok (some read) ∧ read.Same cursor

/-! ## What a token stands for -/

theorem nodup_fields (cursor : PageCursor) : (cursor.fields.map Prod.fst).Nodup := nodup_fromEntries _

theorem fields_ne_nil (cursor : PageCursor) : cursor.fields ≠ [] := by
  intro none
  have there : versionKey ∈ cursor.fields.map Prod.fst := (mem_keys_fromEntries _).mpr List.mem_cons_self
  rw [none] at there
  cases there

theorem readsAs_json (field : CursorField) : ReadsAs field.json field.value := by
  cases field with
  | version => exact readsAs_one
  | text units => exact readsAs_quoted units

/-- The token of a cursor stands for its fields. -/
theorem tokenMembers?_encoded (cursor : PageCursor) :
    tokenMembers? (base64url cursor.octets) = some (cursor.fields.map fun field => (field.1, field.2.value)) := by
  have nodup : ((cursor.fields.map fun field => (field.1, field.2.value)).map Prod.fst).Nodup := by
    rw [List.map_map]
    exact cursor.nodup_fields
  have read := parseJson_objectText Prod.fst cursor.fields_ne_nil fun field _ => readsAs_json field.2
  rw [tokenMembers?, base64urlOctets_base64url, octets, utf8Text_encode, read, fromEntries_of_nodup nodup]
  rfl

theorem property?_fields (there : (key, text) ∈ cursor.members) :
    property? key (cursor.fields.map fun field => (field.1, field.2.value)) = some (.string text) := by
  have nodup : ((cursor.members.map fun member => (member.1, CursorField.text member.2)).map Prod.fst).Nodup := by
    rw [List.map_map]
    exact cursor.distinct
  have member : (key, CursorField.text text) ∈ cursor.members.map fun member => (member.1, CursorField.text member.2) :=
    List.mem_map.mpr ⟨(key, text), there, rfl⟩
  rw [property?_map CursorField.value, fields, property?_fromEntries_cons _ nodup member]
  rfl

/-- Without a property of its name, the version comes first. -/
theorem fields_of_versionKey (absent : versionKey ∉ cursor.names) :
    cursor.fields = (versionKey, .version) :: cursor.members.map fun member => (member.1, .text member.2) := by
  apply fromEntries_of_nodup
  rw [List.map_cons, List.map_map, List.nodup_cons]
  exact ⟨absent, cursor.distinct⟩

theorem carriedText_encoded (there : (key, text) ∈ cursor.members) :
    carriedText (base64url cursor.octets) key = text := by
  rw [carriedText, tokenMembers?_encoded, Option.bind_some, property?_fields there]
  rfl

theorem carried_encoded (keyed : cursor.HasKeys keys) : (carried (base64url cursor.octets) keys).Same cursor := by
  intro key
  rw [carried, property?_fromEntries_map]
  by_cases there : key ∈ cursor.names
  · obtain ⟨⟨name, text⟩, member, rfl⟩ := List.mem_map.mp there
    rw [if_pos ((keyed name).mp there), carriedText_encoded member, property?_of_mem cursor.distinct member]
  · rw [if_neg fun asked => there ((keyed key).mpr asked), property?_eq_none.mpr there]

/-! ## Decoding what was encoded -/

/-- What the decoder demands of a token, and what it answers. -/
theorem decodeToken_eq_ok {read : PageCursor} : decodeToken token keys = .ok read ↔
    (token.flatMap charUnits).length ≤ 1024 ∧ (∀ c ∈ token, c ∈ base64Alphabet) ∧
      ∃ members, tokenMembers? token = some members ∧ isOne (property? versionKey members) = true ∧
        (∀ member ∈ members, member.1 = versionKey ∨ member.1 ∈ keys) ∧
        (∀ key ∈ keys, (textOf? (property? key members)).isSome = true) ∧ carried token keys = read := by
  simp only [decodeToken, demand_bind_eq_ok, obtain?_bind_eq_ok, List.all_eq_true, Bool.or_eq_true, decide_eq_true_eq,
    List.contains_iff_mem, Except.ok.injEq, and_assoc]

theorem decodePageCursor_eq_ok {read : PageCursor} : decodePageCursor (some token) keys = .ok (some read) ↔
    token ≠ [] ∧ decodeToken token keys = .ok read := by
  unfold decodePageCursor
  simp only [Option.all_some, List.isEmpty_iff, Option.getD_some]
  split_ifs with none
  · simp [none]
  · cases done : decodeToken token keys <;> simp [none, Except.map]

theorem token_ne_nil (cursor : PageCursor) : base64url cursor.octets ≠ [] := by
  intro none
  have read := tokenMembers?_encoded cursor
  rw [none] at read
  cases read

theorem decodesTo_iff (keyed : cursor.HasKeys keys) : DecodesTo (base64url cursor.octets) keys cursor ↔
    versionKey ∉ cursor.names ∧ cursor.octets.length ≤ 768 := by
  have digits := base64url_alphabet cursor.octets
  have length := length_base64url cursor.octets
  constructor
  · rintro ⟨read, done, _⟩
    obtain ⟨short, _, members, found, one, _⟩ := decodeToken_eq_ok.mp (decodePageCursor_eq_ok.mp done).2
    rw [length_utf16_digits digits] at short
    refine ⟨fun there => ?_, by omega⟩
    obtain ⟨⟨name, text⟩, member, rfl⟩ := List.mem_map.mp there
    rw [tokenMembers?_encoded] at found
    cases found
    rw [property?_fields member] at one
    cases one
  · rintro ⟨absent, small⟩
    refine ⟨_, decodePageCursor_eq_ok.mpr ⟨cursor.token_ne_nil, decodeToken_eq_ok.mpr ⟨?_, digits, _,
      tokenMembers?_encoded cursor, ?_, ?_, ?_, rfl⟩⟩, carried_encoded keyed⟩
    · rw [length_utf16_digits digits]
      omega
    · rw [fields_of_versionKey absent, List.map_cons, property?, if_pos rfl]
      rfl
    · rw [fields_of_versionKey absent, List.map_cons, List.map_map]
      intro member there
      rcases List.mem_cons.mp there with rfl | later
      · exact .inl rfl
      · obtain ⟨entry, known, rfl⟩ := List.mem_map.mp later
        exact .inr ((keyed entry.1).mp (List.mem_map_of_mem known))
    · intro key asked
      obtain ⟨⟨name, text⟩, member, rfl⟩ := List.mem_map.mp ((keyed key).mpr asked)
      rw [property?_fields member]
      rfl

/-! ## Encoding what was decoded -/

theorem encodePageCursor_eq_ok : encodePageCursor cursor = .ok token ↔ cursor.members ≠ [] ∧
    (∀ member ∈ cursor.members, cursorKey member.1 = true ∧ member.2.length ≤ 256) ∧ base64url cursor.octets = token := by
  simp only [encodePageCursor, demand_bind_eq_ok, List.all_eq_true, Bool.and_eq_true, decide_eq_true_eq, Except.ok.injEq,
    and_assoc]

theorem hasKeys_carried (token : Text) (keys : List Units) : (carried token keys).HasKeys keys := by
  intro key
  rw [names, carried, mem_keys_fromEntries, List.map_map]
  simp

/-- The cursor that a token carries is one that the encoder takes when the names and the values are. -/
theorem encodes_carried : (∃ again, encodePageCursor (carried token keys) = .ok again) ↔
    keys ≠ [] ∧ ∀ key ∈ keys, cursorKey key = true ∧ (carriedText token key).length ≤ 256 := by
  have keyed := hasKeys_carried token keys
  have values (key text : Units) (there : (key, text) ∈ (carried token keys).members) :
      key ∈ keys ∧ text = carriedText token key := by
    have asked := (keyed key).mp (List.mem_map_of_mem (f := Prod.fst) there)
    have value := property?_of_mem (carried token keys).distinct there
    rw [carried, property?_fromEntries_map, if_pos asked] at value
    exact ⟨asked, (Option.some.inj value).symm⟩
  constructor
  · rintro ⟨again, done⟩
    obtain ⟨some, valid, _⟩ := encodePageCursor_eq_ok.mp done
    constructor
    · rintro rfl
      exact some rfl
    · intro key asked
      obtain ⟨⟨name, text⟩, member, rfl⟩ := List.mem_map.mp ((keyed key).mpr asked)
      have bounds := valid _ member
      rwa [(values name text member).2] at bounds
  · rintro ⟨some, valid⟩
    refine ⟨_, encodePageCursor_eq_ok.mpr ⟨fun none => ?_, fun member there => ?_, rfl⟩⟩
    · obtain ⟨key, asked⟩ := List.exists_mem_of_ne_nil keys some
      have named := (keyed key).mpr asked
      rw [names, none] at named
      cases named
    · obtain ⟨asked, same⟩ := values member.1 member.2 there
      rw [same]
      exact valid _ asked

/-- The decoder accepts no cursor with a property named like the version. -/
theorem versionKey_not_mem_of_decoded {read : PageCursor} (done : decodeToken token keys = .ok read) :
    versionKey ∉ keys := by
  obtain ⟨_, _, members, _, one, _, texts, _⟩ := decodeToken_eq_ok.mp done
  intro asked
  have text := texts versionKey asked
  cases value : property? versionKey members with
  | none =>
    rw [value] at one
    cases one
  | some json =>
    rw [value] at one text
    cases json with
    | string units => cases one
    | _ => cases text

/-- What the encoder takes is read back, when no property is named like the version and the JSON text has at most 768
octets; what the decoder accepts is encoded and read back, when its names and values are ones that the encoder takes and
its JSON text has at most 768 octets. -/
theorem pageCursor_roundTrips (cursor : PageCursor) (keys : List Units) (token : Text) :
    (encodePageCursor cursor = .ok token → cursor.HasKeys keys →
      (DecodesTo token keys cursor ↔ versionKey ∉ cursor.names ∧ cursor.octets.length ≤ 768)) ∧
    (decodePageCursor (some token) keys = .ok (some cursor) →
      ((∃ again, encodePageCursor cursor = .ok again ∧ DecodesTo again keys cursor) ↔
        keys ≠ [] ∧ (∀ key ∈ keys, cursorKey key = true ∧ (carriedText token key).length ≤ 256) ∧
          (carried token keys).octets.length ≤ 768)) := by
  constructor
  · intro encoded keyed
    obtain ⟨_, _, rfl⟩ := encodePageCursor_eq_ok.mp encoded
    exact decodesTo_iff keyed
  · intro decoded
    have done := (decodePageCursor_eq_ok.mp decoded).2
    obtain ⟨_, _, _, _, _, _, _, rfl⟩ := decodeToken_eq_ok.mp done
    have keyed := hasKeys_carried token keys
    have absent : versionKey ∉ (carried token keys).names := fun there =>
      versionKey_not_mem_of_decoded done ((keyed versionKey).mp there)
    constructor
    · rintro ⟨again, encoded, read⟩
      obtain ⟨_, _, rfl⟩ := encodePageCursor_eq_ok.mp encoded
      obtain ⟨some, valid⟩ := encodes_carried.mp ⟨_, encoded⟩
      exact ⟨some, valid, ((decodesTo_iff keyed).mp read).2⟩
    · rintro ⟨some, valid, small⟩
      obtain ⟨again, encoded⟩ := encodes_carried.mpr ⟨some, valid⟩
      obtain ⟨_, _, rfl⟩ := encodePageCursor_eq_ok.mp encoded
      exact ⟨_, encoded, (decodesTo_iff keyed).mpr ⟨absent, small⟩⟩

/-! ## Cursors with one name -/

/-- The name `id`. -/
def idKey : Units := [105, 100]

/-- `{ id: text }`. -/
def idCursor (text : Units) : PageCursor := ⟨[(idKey, text)], List.nodup_singleton _⟩

theorem hasKeys_idCursor (text : Units) : (idCursor text).HasKeys [idKey] := fun _ => Iff.rfl

theorem carried_idCursor (token : Text) : carried token [idKey] = idCursor (carriedText token idKey) := rfl

theorem pageCursor_roundTrips_id : DecodesTo (base64url (idCursor [97]).octets) [idKey] (idCursor [97]) ∧
    ∃ read, decodePageCursor (some (base64url (idCursor [97]).octets)) [idKey] = .ok (some read) ∧
      ∃ again, encodePageCursor read = .ok again ∧ DecodesTo again [idKey] read := by
  have small : (idCursor [97]).octets.length ≤ 768 := by decide +kernel
  obtain ⟨token, same⟩ : ∃ token, token = base64url (idCursor [97]).octets := ⟨_, rfl⟩
  have encoded : encodePageCursor (idCursor [97]) = .ok token :=
    encodePageCursor_eq_ok.mpr ⟨List.cons_ne_nil _ _, by decide +kernel, same.symm⟩
  have text : carriedText token idKey = [97] := same ▸ carriedText_encoded (List.mem_singleton_self _)
  rw [← same]
  have first := ((pageCursor_roundTrips (idCursor [97]) [idKey] token).1 encoded (hasKeys_idCursor _)).mpr
    ⟨by decide +kernel, small⟩
  obtain ⟨read, decoded, _⟩ := id first
  refine ⟨first, read, decoded, ((pageCursor_roundTrips read [idKey] token).2 decoded).mpr
    ⟨List.cons_ne_nil _ _, ?_, ?_⟩⟩
  · intro key asked
    obtain rfl := List.mem_singleton.mp asked
    rw [text]
    exact ⟨by decide +kernel, by decide⟩
  · rw [carried_idCursor, text]
    exact small

/-- A name of 256 characters that take three octets each: the encoder takes it, and the decoder refuses the token. -/
theorem wide_cursor_refused :
    encodePageCursor (idCursor (List.replicate 256 0x3042)) =
      .ok (base64url (idCursor (List.replicate 256 0x3042)).octets) ∧
    (idCursor (List.replicate 256 0x3042)).HasKeys [idKey] ∧
    ¬ DecodesTo (base64url (idCursor (List.replicate 256 0x3042)).octets) [idKey]
      (idCursor (List.replicate 256 0x3042)) := by
  have keyed := hasKeys_idCursor (List.replicate 256 0x3042)
  have large : ¬ (idCursor (List.replicate 256 0x3042)).octets.length ≤ 768 := by decide +kernel
  refine ⟨encodePageCursor_eq_ok.mpr ⟨List.cons_ne_nil _ _, by decide +kernel, rfl⟩, keyed, ?_⟩
  rw [decodesTo_iff keyed]
  exact fun both => large both.2

end PageCursor

end LatexRenderer
