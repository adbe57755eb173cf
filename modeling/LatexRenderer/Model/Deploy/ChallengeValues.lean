import Mathlib.Data.Char
import Mathlib.Data.List.Lex
import Mathlib.Data.List.Sort
import LatexRenderer.Model.Deploy.AuthorityStore
import LatexRenderer.Model.Deploy.DnsResponder

/-! # Challenge values

What the DNS responder asks the store of the authority: the values that are stored for a name and have not expired.
-/

namespace LatexRenderer

open Machine

variable {Body : Type}

/-- The values of a name that have not expired, by the two readings of the clock. -/
def AuthorityStore.unexpired (first second : Timestamp) (name : Text) (s : AuthorityStore Body) : List Text :=
  (s.challenges.filter fun row => row.name = name ∧ first < row.expiresAt).map AuthorityChallenge.value ++
    (s.operatorChallenges.filter fun row => row.name = name ∧ second < row.expiresAt).map OperatorChallenge.value

/-- `challengeValues`; the `UNION` has each value once. -/
def AuthorityStore.challengeValues (first second : Option Timestamp) (s : AuthorityStore Body) (name : Text) :
    Except AuthorityError (List Text) :=
  if 253 < name.length ∨ ¬ "_acme-challenge.".toList <+: name then .ok []
  else do
    let first ← obtain? first .clockInvalid
    let second ← obtain? second .clockInvalid
    pure ((s.unexpired first second name).dedup.insertionSort (· ≤ ·))

/-- What the responder asks the store. -/
def AuthorityStore.dnsValues (s : AuthorityStore Body) (first second : Timestamp) : ChallengeValues := fun name =>
  (s.challengeValues (some first) (some second) name).toOption.map fun values => values.map some

end LatexRenderer
