import LatexRenderer.Machine.Fallible
import LatexRenderer.Machine.Octets
import LatexRenderer.Model.Deploy.LanAddress

/-! # The renewal identifier of a certificate

A client that asks when to renew names its certificate by the key identifier of the authority and the serial
number. They are read with a walk of the DER encoding, which follows lengths that stand in the certificate; a read
past the end and a loop that does not end are failures of their own here.
-/

namespace LatexRenderer

open Machine

/-- The digits of `base64url`. -/
def base64Alphabet : Text := "ABCDEFGHIJKLMNOPQRSTUVWXYZabcdefghijklmnopqrstuvwxyz0123456789-_".toList

/-- A digit of `base64url`. -/
def base64Char (value : Nat) : Char := base64Alphabet.getD value 'A'

/-- `toString("base64url")`. -/
def base64url : Octets → Text
  | [] => []
  | [a] => [base64Char (a.toNat / 4), base64Char (a.toNat % 4 * 16)]
  | [a, b] =>
    [base64Char (a.toNat / 4), base64Char (a.toNat % 4 * 16 + b.toNat / 16), base64Char (b.toNat % 16 * 4)]
  | a :: b :: c :: rest =>
    base64Char (a.toNat / 4) :: base64Char (a.toNat % 4 * 16 + b.toNat / 16) ::
      base64Char (b.toNat % 16 * 4 + c.toNat / 64) :: base64Char (c.toNat % 64) :: base64url rest

/-- How the walk of a certificate fails. -/
inductive DerFailure where
  | thrown (message : Text)
  | unread
  | unfinished
  deriving DecidableEq

/-- `throw new Error`. -/
def derError (message : String) : DerFailure := .thrown message.toList

/-- What `item` returns; `stop` is its `end`. -/
structure DerItem where
  tag : UInt8
  start : Nat
  stop : Nat
  deriving DecidableEq

/-- `data[offset]`. -/
def octetAt (data : Octets) (offset : Nat) : Except DerFailure UInt8 := obtain? data[offset]? .unread

/-- The loop of `item` over the octets of a length. -/
def lengthOctets (data : Octets) : Nat → Nat → Nat → Except DerFailure Nat
  | 0, _, length => .ok length
  | count + 1, offset, length => do
    let octet ← octetAt data offset
    lengthOctets data count (offset + 1) (length * 256 + octet.toNat)

/-- The length that the first length octet begins, and the offset after it. -/
def itemLength (data : Octets) (first : UInt8) (offset stop : Nat) : Except DerFailure (Nat × Nat) :=
  if first.toNat < 128 then .ok (first.toNat, offset)
  else do
    let count := first.toNat % 128
    demand (1 ≤ count ∧ count ≤ 4 ∧ offset + count ≤ stop) (derError "Invalid DER length")
    let length ← lengthOctets data count offset 0
    return (length, offset + count)

def item (data : Octets) (offset stop : Nat) : Except DerFailure DerItem := do
  demand (offset + 2 ≤ stop) (derError "Invalid DER item")
  let tag ← octetAt data offset
  let first ← octetAt data (offset + 1)
  let (length, start) ← itemLength data first (offset + 2) stop
  demand (start + length ≤ stop) (derError "Invalid DER bounds")
  return { tag, start, stop := start + length }

/-- A loop over the items up to an offset. -/
def walk {σ : Type} (data : Octets) (stop : Nat) (visit : σ → DerItem → Except DerFailure σ) :
    Nat → Nat → σ → Except DerFailure σ
  | 0, _, _ => .error .unfinished
  | fuel + 1, offset, state =>
    if offset < stop then do
      let next ← item data offset stop
      let state ← visit state next
      walk data stop visit fuel next.stop state
    else .ok state

/-- The loop over the items of a range; every item has two octets at least. -/
def forItems {σ : Type} (data : Octets) (start stop : Nat) (visit : σ → DerItem → Except DerFailure σ) (state : σ) :
    Except DerFailure σ := walk data stop visit (stop - start + 1) start state

/-- The object identifier of the Authority Key Identifier. -/
def authorityKeyOid : Octets := [0x55, 0x1d, 0x23]

/-- One element of an Authority Key Identifier. -/
def visitKey (data : Octets) (aki : Option Octets) (key : DerItem) : Except DerFailure (Option Octets) :=
  .ok (if key.tag = 0x80 then some (slice data key.start key.stop) else aki)

/-- The value of an extension, after its critical flag. -/
def extensionValue (data : Octets) (oid extension : DerItem) : Except DerFailure DerItem := do
  let value ← item data oid.stop extension.stop
  if value.tag = 1 then item data value.stop extension.stop else .ok value

/-- One extension. -/
def visitExtension (data : Octets) (aki : Option Octets) (extension : DerItem) :
    Except DerFailure (Option Octets) := do
  let oid ← item data extension.start extension.stop
  if oid.tag ≠ 6 ∨ slice data oid.start oid.stop ≠ authorityKeyOid then return aki
  else do
    let value ← extensionValue data oid extension
    demand (value.tag = 4) (derError "Invalid Authority Key Identifier")
    let keySequence ← item data value.start value.stop
    forItems data keySequence.start keySequence.stop (visitKey data) aki

/-- One field of the certificate after its serial number. -/
def visitField (data : Octets) (aki : Option Octets) (field : DerItem) : Except DerFailure (Option Octets) :=
  if field.tag ≠ 0xa3 then .ok aki
  else do
    let sequence ← item data field.start field.stop
    forItems data sequence.start sequence.stop (visitExtension data) aki

/-- The serial number, after the version. -/
def serialItem (data : Octets) (tbs : DerItem) : Except DerFailure DerItem := do
  let serial ← item data tbs.start tbs.stop
  if serial.tag = 0xa0 then item data serial.stop tbs.stop else .ok serial

/-- The loop that takes leading zeros off. -/
def unsignedOctets : Octets → Octets
  | first :: second :: rest => if first = 0 then unsignedOctets (second :: rest) else first :: second :: rest
  | octets => octets

/-- The two parts of an identifier. -/
def certificateIdentifier (aki serial : Octets) : Text := base64url aki ++ '.' :: base64url serial

/-- `lanHttpsAcmeCertificateId`, after `X509Certificate` has accepted these octets. -/
def certificateIdOf (data : Octets) : Except DerFailure (Option Text) := do
  demand (data.length ≤ 524288) (derError "Certificate is too large")
  let outer ← item data 0 data.length
  let tbs ← item data outer.start outer.stop
  demand (outer.tag = 0x30 ∧ tbs.tag = 0x30) (derError "Invalid certificate DER")
  let serial ← serialItem data tbs
  demand (serial.tag = 2 ∧ serial.start ≠ serial.stop) (derError "Invalid certificate serial")
  let first ← octetAt data serial.start
  demand (first.toNat < 128) (derError "Negative certificate serial")
  let serialBytes := unsignedOctets (slice data serial.start serial.stop)
  let aki ← forItems data serial.stop tbs.stop (visitField data) none
  return aki.bind fun key =>
    if 1 ≤ key.length ∧ key.length ≤ 64 then some (certificateIdentifier key serialBytes) else none

/-- `lanHttpsAcmeCertificateId`; `X509Certificate` throws or has these octets as `raw`. -/
def lanHttpsAcmeCertificateId (raw : Option Octets) : Except DerFailure (Option Text) := do
  let data ← obtain? raw (derError "Invalid certificate")
  certificateIdOf data

end LatexRenderer
