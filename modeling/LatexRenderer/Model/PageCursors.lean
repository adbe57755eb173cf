import LatexRenderer.Machine.Fallible
import LatexRenderer.Machine.JsonText
import LatexRenderer.Machine.Utf8
import LatexRenderer.Model.Admission
import LatexRenderer.Model.Deploy.CertificateId

/-! # Page cursors

All list endpoints hand out the sort values of the last row of a page as a token: the `base64url` text of a JSON object
with a version. The encoder limits the names and the values of a cursor, the decoder the length of a token.
-/

namespace LatexRenderer

open Machine

/-- `PageCursor`: an object of strings. -/
structure PageCursor where
  members : List (Units × Units)
  distinct : (members.map Prod.fst).Nodup

namespace PageCursor

/-- `Object.keys`. -/
def names (cursor : PageCursor) : List Units := cursor.members.map Prod.fst

/-- The properties are the same ones. -/
def Same (cursor other : PageCursor) : Prop := ∀ key, property? key cursor.members = property? key other.members

end PageCursor

/-- The name of the version. -/
def versionKey : Units := "v".toList.flatMap charUnits

def cursorLetter (unit : UInt16) : Bool :=
  decide (65 ≤ unit.toNat ∧ unit.toNat ≤ 90) || decide (97 ≤ unit.toNat ∧ unit.toNat ≤ 122)

/-- `/^[A-Za-z][A-Za-z0-9_]{0,31}$/`. -/
def cursorKey : Units → Bool
  | [] => false
  | first :: rest => cursorLetter first && decide (rest.length ≤ 31) &&
      rest.all fun unit => cursorLetter unit || decide (48 ≤ unit.toNat ∧ unit.toNat ≤ 57) || decide (unit.toNat = 95)

/-- A property of the object that is encoded. -/
inductive CursorField where
  | version
  | text (units : Units)

namespace CursorField

/-- The text of the value. -/
def json : CursorField → Text
  | version => ['1']
  | text units => quoted units

/-- The value. -/
def value : CursorField → Json
  | version => .number false 1 0
  | text units => .string units

end CursorField

namespace PageCursor

/-- `{ v: 1, ...value }`. -/
def fields (cursor : PageCursor) : List (Units × CursorField) :=
  fromEntries ((versionKey, .version) :: cursor.members.map fun member => (member.1, .text member.2))

/-- `Buffer.from(JSON.stringify({ v: 1, ...value }), "utf8")`. -/
def octets (cursor : PageCursor) : Octets :=
  utf8Encode (objectText (cursor.fields.map fun member => (member.1, member.2.json)))

end PageCursor

def encodePageCursor (cursor : PageCursor) : Except AppError Text := do
  demand (cursor.members ≠ [] ∧ cursor.members.all fun member => cursorKey member.1 && decide (member.2.length ≤ 256))
    ⟨"INVALID_CURSOR", "Cursor values are invalid", 500⟩
  .ok (base64url cursor.octets)

/-- The error of a token that is no cursor. -/
def cursorInvalid : AppError := ⟨"INVALID_CURSOR", "Cursor is invalid", 400⟩

/-- The number that a digit of `base64url` stands for. -/
def base64Value (c : Char) : Nat := base64Alphabet.idxOf c

/-- `Buffer.from(…, "base64url")` of digits. -/
def base64urlOctets : Text → Octets
  | a :: b :: c :: d :: rest =>
    UInt8.ofNat (base64Value a * 4 + base64Value b / 16) :: UInt8.ofNat (base64Value b % 16 * 16 + base64Value c / 4) ::
      UInt8.ofNat (base64Value c % 4 * 64 + base64Value d) :: base64urlOctets rest
  | [a, b, c] =>
    [UInt8.ofNat (base64Value a * 4 + base64Value b / 16), UInt8.ofNat (base64Value b % 16 * 16 + base64Value c / 4)]
  | [a, b] => [UInt8.ofNat (base64Value a * 4 + base64Value b / 16)]
  | _ => []

/-- The properties of an object, but for an array. -/
def objectMembers? : Json → Option (List (Units × Json))
  | .object members => some members
  | _ => none

/-- The properties of the object that a token stands for. -/
def tokenMembers? (token : Text) : Option (List (Units × Json)) :=
  (parseJson (utf8Text (base64urlOctets token))).bind objectMembers?

/-- A number rounds to 1: it is not below the middle between 1 and the double before it, nor above the middle between 1
and the one after it. -/
def roundsToOne (digits : Nat) : Int → Bool
  | .ofNat exponent => decide (digits = 1 ∧ exponent = 0)
  | .negSucc exponent => decide (exponent + 1 ≤ (Nat.toDigits 10 digits).length) &&
      decide ((2 ^ 54 - 1) * 10 ^ (exponent + 1) ≤ digits * 2 ^ 54) &&
      decide (digits * 2 ^ 53 ≤ (2 ^ 53 + 1) * 10 ^ (exponent + 1))

/-- `… === 1`. -/
def isOne : Option Json → Bool
  | some (.number false digits exponent) => roundsToOne digits exponent
  | _ => false

/-- A string. -/
def textOf? : Option Json → Option Units
  | some (.string units) => some units
  | _ => none

/-- The string that a token carries under a name. -/
def carriedText (token : Text) (key : Units) : Units :=
  (textOf? ((tokenMembers? token).bind (property? key))).getD []

/-- `Object.fromEntries(keys.map((key) => [key, object[key]]))`. -/
def carried (token : Text) (keys : List Units) : PageCursor :=
  ⟨fromEntries (keys.map fun key => (key, carriedText token key)), nodup_fromEntries _⟩

/-- `decodePageCursor` of a text. -/
def decodeToken (token : Text) (keys : List Units) : Except AppError PageCursor := do
  demand ((token.flatMap charUnits).length ≤ 1024 ∧ token.all fun c => base64Alphabet.contains c) cursorInvalid
  let members ← obtain? (tokenMembers? token) cursorInvalid
  demand (isOne (property? versionKey members)) cursorInvalid
  demand ((members.all fun member => decide (member.1 = versionKey) || keys.contains member.1) ∧
    keys.all fun key => (textOf? (property? key members)).isSome) cursorInvalid
  .ok (carried token keys)

def decodePageCursor (value : Option Text) (keys : List Units) : Except AppError (Option PageCursor) :=
  if value.all (·.isEmpty) then .ok none else (decodeToken (value.getD []) keys).map some

end LatexRenderer
