import Mathlib.Data.Nat.Digits.Lemmas
import LatexRenderer.Machine.Fallible
import LatexRenderer.Model.Rows

/-! # Names of LAN addresses

A private address is one DNS label below the shared LAN domain, and an installation has a management hostname
of its own there, with its whole 256-bit identity in base 36.
-/

namespace LatexRenderer

open Machine

/-- The text of a name, an address or a secret. -/
abbrev Text : Type := List Char

/-- Texts are the same when their characters are. -/
instance : LawfulBEq Text := inferInstanceAs (LawfulBEq (List Char))

/-- `length`: UTF-16 code units. -/
def utf16Length (value : Text) : Nat := (value.map fun c => if c.toNat < 0x10000 then 1 else 2).sum

/-- `split`, at one character. -/
def splitText (separator : Char) : Text → List Text
  | [] => [[]]
  | c :: rest =>
    if c = separator then [] :: splitText separator rest
    else match splitText separator rest with
      | [] => [[c]]
      | part :: parts => (c :: part) :: parts

/-- `join`, with one character. -/
def joinText (separator : Char) : List Text → Text
  | [] => []
  | [part] => part
  | part :: parts => part ++ separator :: joinText separator parts

/-- `split("::")`. -/
def splitDoubleColon : Text → List Text
  | ':' :: ':' :: rest => [] :: splitDoubleColon rest
  | c :: rest =>
    match splitDoubleColon rest with
    | [] => [[c]]
    | part :: parts => (c :: part) :: parts
  | [] => [[]]

/-- A lower-case hexadecimal digit. -/
def hexLower (c : Char) : Bool := c.isDigit || ('a' ≤ c && c ≤ 'f')

/-- A hexadecimal digit. -/
def hexDigit (c : Char) : Bool := hexLower c || ('A' ≤ c && c ≤ 'F')

/-- The value of a digit of a base up to 36. -/
def digitValue (c : Char) : Nat :=
  if c.isDigit then c.toNat - '0'.toNat else c.toLower.toNat - 'a'.toNat + 10

/-- The number that digits stand for. -/
def numberText (base : Nat) (text : Text) : Nat := text.foldl (fun value c => value * base + digitValue c) 0

/-- A digit of base 36. -/
def digitText (digit : Nat) : Char :=
  if digit < 10 then Char.ofNat ('0'.toNat + digit) else Char.ofNat ('a'.toNat + (digit - 10))

/-- `BigInt.prototype.toString`, in a base up to 36. -/
def toText (base value : Nat) : Text :=
  if value = 0 then ['0'] else ((Nat.digits base value).map digitText).reverse

def padStart (text : Text) : Text := List.replicate (4 - text.length) '0' ++ text

/-- An octet of an IPv4 address. -/
def ipv4Octet (part : Text) : Option Nat :=
  if part ≠ [] ∧ part.all Char.isDigit ∧ part.length ≤ 3 ∧ (part.length = 1 ∨ part.head? ≠ some '0') ∧
      numberText 10 part ≤ 255 then some (numberText 10 part)
  else none

/-- The octets of an IPv4 address. -/
def ipv4? (value : Text) : Option (List Nat) :=
  if (splitText '.' value).length = 4 then (splitText '.' value).mapM ipv4Octet else none

/-- A group of an IPv6 address. -/
def ipv6Group (part : Text) : Option Nat :=
  if part ≠ [] ∧ part.length ≤ 4 ∧ part.all hexDigit then some (numberText 16 part) else none

/-- The groups of one side of `::`; an IPv4 address may be the last two. -/
def ipv6Groups (last : Bool) (side : Text) : Option (List Nat) :=
  if side = [] then some []
  else match (splitText ':' side).reverse with
    | [] => none
    | final :: before =>
      match if last then ipv4? final else none with
      | some [a, b, c, d] => (before.reverse.mapM ipv6Group).map (· ++ [a * 256 + b, c * 256 + d])
      | _ => (splitText ':' side).mapM ipv6Group

/-- The eight words of an IPv6 address without a zone. -/
def ipv6? (value : Text) : Option (List Nat) :=
  match splitDoubleColon value with
  | [whole] => (ipv6Groups true whole).filter fun words => decide (words.length = 8)
  | [left, right] =>
    match ipv6Groups false left, ipv6Groups true right with
    | some head, some tail =>
      if head.length + tail.length ≤ 7 then
        some (head ++ List.replicate (8 - head.length - tail.length) 0 ++ tail)
      else none
    | _, _ => none
  | _ => none

/-- `isIP`, of an address without a zone. -/
def isIP (value : Text) : Nat :=
  if (ipv4? value).isSome then 4 else if (ipv6? value).isSome then 6 else 0

/-- How many of the first words are zero. -/
def zeroRun (words : List Nat) : Nat := (words.takeWhile (· = 0)).length

/-- Where the first longest run of zero words begins, and how long it is. -/
def longestZeros : List Nat → Nat × Nat
  | [] => (0, 0)
  | word :: words =>
    if (longestZeros words).2 ≤ zeroRun (word :: words) then (0, zeroRun (word :: words))
    else ((longestZeros words).1 + 1, (longestZeros words).2)

/-- The hostname of `http://[…]/`, without its brackets. -/
def ipv6Hostname (words : List Nat) : Text :=
  let (start, length) := longestZeros words
  if 2 ≤ length then
    joinText ':' ((words.take start).map (toText 16)) ++ ':' :: ':' ::
      joinText ':' ((words.drop (start + length)).map (toText 16))
  else joinText ':' (words.map (toText 16))

/-- Why a name or an address is rejected. -/
inductive LanNameError where
  | domain
  | address
  | outside
  | encoding
  | notCanonical
deriving DecidableEq, Repr

/-- The texts of the errors. -/
def LanNameError.message : LanNameError → String
  | .domain => "LAN HTTPS requires an ASCII DNS domain without a trailing dot"
  | .address => "LAN HTTPS requires a private IPv4 or IPv6 ULA address"
  | .outside => "LAN HTTPS name is outside the configured domain"
  | .encoding => "LAN HTTPS name must encode exactly one private IP address"
  | .notCanonical => "LAN HTTPS name is not canonical"

/-- A letter or digit of a DNS label. -/
def labelChar (c : Char) : Bool := c.isAlphanum

/-- `/^[a-z0-9](?:[a-z0-9-]{0,61}[a-z0-9])?$/i`. -/
def dnsLabel (label : Text) : Bool :=
  decide (label ≠ []) && decide (label.length ≤ 63) && label.all (fun c => labelChar c || c == '-') &&
    label.head?.any labelChar && label.getLast?.any labelChar

def normalizeLanHttpsDomain (value : Text) : Except LanNameError Text :=
  if value.length ≤ 213 ∧ '.' ∈ value ∧ isIP value = 0 ∧ (splitText '.' value).all dnsLabel ∧
      ¬ ((splitText '.' value).getLast?.any fun label => decide (label ≠ []) && label.all Char.isDigit) then
    .ok (value.map Char.toLower)
  else .error .domain

/-- A private address and its label. -/
structure PrivateAddress where
  address : Text
  label : Text
deriving DecidableEq, Repr

/-- Whether the octets are those of a private IPv4 address. -/
def privateOctets : List Nat → Bool
  | a :: b :: _ => a == 10 || (a == 172 && 16 ≤ b && b ≤ 31) || (a == 192 && b == 168)
  | _ => false

/-- The words of a canonical IPv6 address, each as it stands there. -/
def canonicalWords (canonical : Text) : List Text :=
  match splitDoubleColon canonical with
  | [head, tail] =>
    let left := if head = [] then [] else splitText ':' head
    let right := if tail = [] then [] else splitText ':' tail
    left ++ List.replicate (8 - left.length - right.length) ['0'] ++ right
  | _ => splitText ':' canonical

def privateAddress (value : Text) : Except LanNameError PrivateAddress :=
  if '%' ∈ value then .error .address
  else match ipv4? value, ipv6? value with
    | some octets, _ =>
      if privateOctets octets then .ok ⟨value, joinText '-' (splitText '.' value)⟩ else .error .address
    | none, some words =>
      if (value.take 2).map Char.toLower ∈ [['f', 'c'], ['f', 'd']] then
        .ok ⟨ipv6Hostname words, joinText '-' ((canonicalWords (ipv6Hostname words)).map padStart)⟩
      else .error .address
    | none, none => .error .address

def lanHttpsHostname (address domain : Text) : Except LanNameError Text := do
  let checked ← privateAddress address
  let normalized ← normalizeLanHttpsDomain domain
  pure (checked.label ++ '.' :: normalized)

/-- `/^(?:[0-9]+-){3}[0-9]+$/`. -/
def ipv4Label (label : Text) : Bool :=
  decide ((splitText '-' label).length = 4) &&
    (splitText '-' label).all fun part => decide (part ≠ []) && part.all Char.isDigit

/-- `/^(?:[0-9a-f]{4}-){7}[0-9a-f]{4}$/`. -/
def ipv6Label (label : Text) : Bool :=
  decide ((splitText '-' label).length = 8) &&
    (splitText '-' label).all fun part => decide (part.length = 4) && part.all hexLower

/-- The address that a label encodes. -/
def labelAddress (label : Text) : Except LanNameError Text :=
  if ipv4Label label then .ok (joinText '.' (splitText '-' label))
  else if ipv6Label label then .ok (joinText ':' (splitText '-' label))
  else .error .encoding

/-- `lanHttpsAddress`; lower case is that of the whole of Unicode. -/
def lanHttpsAddress (toLowerCase : Text → Text) (hostname domain : Text) : Except LanNameError Text := do
  let normalized ← normalizeLanHttpsDomain domain
  let suffix := '.' :: normalized
  let name := toLowerCase hostname
  demand (suffix <:+ name) .outside
  let address ← labelAddress (name.take (name.length - suffix.length))
  let checked ← privateAddress address
  let canonical ← lanHttpsHostname address domain
  demand (canonical = name) .notCanonical
  pure checked.address

/-- The SHA-256 of the public key of an installation. -/
abbrev InstallationId : Type := BitVec 256

/-- Why there is no management hostname. -/
inductive ManagementNameError where
  | domain
  | tooLong
deriving DecidableEq, Repr

def lanHttpsManagementHostname (id : InstallationId) (domain : Text) : Except ManagementNameError Text :=
  match normalizeLanHttpsDomain domain with
  | .error _ => .error .domain
  | .ok normalized =>
    let hostname := 'i' :: '-' :: toText 36 id.toNat ++ ".instances.".toList ++ normalized
    if 253 < hostname.length + 16 then .error .tooLong else .ok hostname

end LatexRenderer
