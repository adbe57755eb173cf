import LatexRenderer.Machine.History
import LatexRenderer.Model.OAuth.Service

/-! # The history of the token pairs

What holds of the pairs handed out, whatever has become of their rows: each code and each refresh token
was traded at most once, each pair after a family's first follows the pair whose refresh token was
traded for it, and so the pairs of a family are numbered without gaps.
-/

namespace LatexRenderer

open Machine

/-- The secret of what was traded. -/
def GrantOrigin.hash : GrantOrigin → String
  | .code hash | .refresh hash => hash

/-- The two secrets of a pair. -/
def Grant.secrets (grant : Grant) : List String :=
  [grant.accessToken, grant.refreshToken]

/-- The values of the random source that a pair mentions. -/
def Grant.names (grant : Grant) : List String :=
  [grant.familyId, grant.accessToken, grant.refreshToken, grant.origin.hash]

/-- When a code or a refresh token was traded. -/
def consumedAt (granted : List Grant) (origin : GrantOrigin) : Option Timestamp :=
  (granted.find? (·.origin == origin)).map (·.timestamp)

/-- A pair starts a family or follows the pair whose refresh token was traded for it. -/
def Grant.Follows (granted : List Grant) (grant : Grant) : Prop :=
  ((∃ hash, grant.origin = .code hash) ∧ grant.sequence = 0) ∨
    ∃ previous ∈ granted, grant.origin = .refresh previous.refreshToken ∧
      grant.familyId = previous.familyId ∧ grant.sequence = previous.sequence + 1

/-- The invariant of the history. -/
structure GrantHistory (drawn : List String) (granted : List Grant) : Prop where
  gapless : Gapless Grant.familyId Grant.sequence granted
  owner : ∀ first ∈ granted, ∀ second ∈ granted, ∀ secret ∈ first.secrets, secret ∈ second.secrets →
    first = second
  apart : ∀ grant ∈ granted, grant.accessToken ≠ grant.refreshToken
  origins : (granted.map Grant.origin).Nodup
  named : ∀ grant ∈ granted, ∀ name ∈ grant.names, name ∈ drawn
  follows : ∀ grant ∈ granted, grant.Follows granted

section ConsumedAt

variable {granted : List Grant} {origin : GrantOrigin} {new : Grant}

theorem consumedAt_append (granted : List Grant) (new : Grant) (origin : GrantOrigin) :
    consumedAt (granted ++ [new]) origin =
      (consumedAt granted origin).or (if new.origin = origin then some new.timestamp else none) := by
  rw [consumedAt, List.find?_append]
  by_cases same : new.origin = origin <;>
    cases found : granted.find? (·.origin == origin) <;> simp [consumedAt, found, same]

theorem consumedAt_append_of_ne (other : new.origin ≠ origin) :
    consumedAt (granted ++ [new]) origin = consumedAt granted origin := by
  rw [consumedAt_append, if_neg other, Option.or_none]

theorem consumedAt_append_self (unused : consumedAt granted new.origin = none) :
    consumedAt (granted ++ [new]) new.origin = some new.timestamp := by
  rw [consumedAt_append, unused, if_pos rfl, Option.none_or]

theorem consumedAt_eq_none : consumedAt granted origin = none ↔ ∀ grant ∈ granted, grant.origin ≠ origin := by
  simp [consumedAt]

theorem consumedAt_isSome {instant : Timestamp} (consumed : consumedAt granted origin = some instant) :
    ∃ grant ∈ granted, grant.origin = origin ∧ grant.timestamp = instant := by
  obtain ⟨grant, found, rfl⟩ := Option.map_eq_some_iff.mp consumed
  exact ⟨grant, List.mem_of_find?_eq_some found, by simpa using List.find?_some found, rfl⟩

end ConsumedAt

namespace GrantHistory

variable {drawn more : List String} {granted : List Grant} {new : Grant}

theorem nil : GrantHistory [] [] where
  gapless := .nil
  owner := by simp
  apart := by simp
  origins := List.nodup_nil
  named := by simp
  follows := by simp

theorem mono (history : GrantHistory drawn granted) (grows : drawn ⊆ more) :
    GrantHistory more granted :=
  { history with named := fun grant member name mentioned => grows (history.named grant member name mentioned) }

/-- An origin whose secret was never drawn was never traded. -/
theorem consumedAt_of_fresh (history : GrantHistory drawn granted) {origin : GrantOrigin}
    (fresh : origin.hash ∉ drawn) : consumedAt granted origin = none := by
  refine consumedAt_eq_none.mpr fun grant member same => fresh ?_
  exact history.named grant member origin.hash (by simp [Grant.names, same])

/-- What was traded was traded for one pair only. -/
theorem consumedAt_of_mem (history : GrantHistory drawn granted) {grant : Grant} (member : grant ∈ granted) :
    consumedAt granted grant.origin = some grant.timestamp := by
  cases consumed : consumedAt granted grant.origin with
  | none => exact absurd rfl (consumedAt_eq_none.mp consumed grant member)
  | some instant =>
    obtain ⟨other, present, same, rfl⟩ := consumedAt_isSome consumed
    rw [List.inj_on_of_nodup_map history.origins present member same]

/-- Two pairs that share a refresh token are one. -/
theorem eq_of_refreshToken (history : GrantHistory drawn granted) {first second : Grant}
    (inFirst : first ∈ granted) (inSecond : second ∈ granted)
    (same : first.refreshToken = second.refreshToken) : first = second :=
  history.owner first inFirst second inSecond first.refreshToken (by simp [Grant.secrets])
    (by simp [Grant.secrets, same])

/-- A pair whose refresh token was not traded is the last of its family. -/
theorem last (history : GrantHistory drawn granted) {grant : Grant} (member : grant ∈ granted)
    (unused : consumedAt granted (.refresh grant.refreshToken) = none) :
    grant.sequence + 1 = granted.countP (·.familyId = grant.familyId) := by
  refine history.gapless.last member fun other present family next => ?_
  rcases history.follows other present with ⟨_, start⟩ | ⟨previous, before, origin, same, number⟩
  · omega
  · have behind : previous = grant :=
      history.gapless.unique before member (same.symm.trans family) (by omega)
    exact consumedAt_eq_none.mp unused other present (behind ▸ origin)

/-- A new pair of fresh secrets, traded for something that was not traded before. -/
theorem append (history : GrantHistory drawn granted) (grows : drawn ⊆ more)
    (named : ∀ name ∈ new.names, name ∈ more) (fresh : ∀ secret ∈ new.secrets, secret ∉ drawn)
    (apart : new.accessToken ≠ new.refreshToken) (unused : consumedAt granted new.origin = none)
    (follows : new.Follows granted)
    (start : new.sequence = 0 → granted.countP (·.familyId = new.familyId) = 0) :
    GrantHistory more (granted ++ [new]) := by
  have old : ∀ grant ∈ granted, ∀ secret ∈ grant.secrets, secret ∉ new.secrets := by
    intro grant member secret mine yours
    refine fresh secret yours (history.named grant member secret ?_)
    simp only [Grant.secrets, List.mem_cons, List.not_mem_nil, or_false] at mine
    simp only [Grant.names, List.mem_cons]
    tauto
  have next : new.sequence = granted.countP (·.familyId = new.familyId) := by
    rcases follows with ⟨_, zero⟩ | ⟨previous, before, origin, same, number⟩
    · rw [start zero, zero]
    · rw [number, same]
      exact history.last before (origin ▸ unused)
  constructor
  case gapless => exact history.gapless.append next
  case owner =>
    intro first inFirst second inSecond secret mine yours
    rcases List.mem_append.mp inFirst with firstOld | firstNew <;>
      rcases List.mem_append.mp inSecond with secondOld | secondNew
    · exact history.owner first firstOld second secondOld secret mine yours
    · obtain rfl := List.mem_singleton.mp secondNew
      exact absurd yours (old first firstOld secret mine)
    · obtain rfl := List.mem_singleton.mp firstNew
      exact absurd mine (old second secondOld secret yours)
    · exact (List.mem_singleton.mp firstNew).trans (List.mem_singleton.mp secondNew).symm
  case apart =>
    intro grant member
    rcases List.mem_append.mp member with before | added
    · exact history.apart grant before
    · obtain rfl := List.mem_singleton.mp added
      exact apart
  case origins => exact nodup_map_append history.origins (consumedAt_eq_none.mp unused)
  case named =>
    intro grant member name mentioned
    rcases List.mem_append.mp member with before | added
    · exact grows (history.named grant before name mentioned)
    · obtain rfl := List.mem_singleton.mp added
      exact named name mentioned
  case follows =>
    have keeps : ∀ grant : Grant, grant.Follows granted → grant.Follows (granted ++ [new]) := by
      rintro grant (start | ⟨previous, before, rest⟩)
      · exact .inl start
      · exact .inr ⟨previous, List.mem_append_left _ before, rest⟩
    intro grant member
    rcases List.mem_append.mp member with before | added
    · exact keeps grant (history.follows grant before)
    · obtain rfl := List.mem_singleton.mp added
      exact keeps _ follows

end GrantHistory

end LatexRenderer
