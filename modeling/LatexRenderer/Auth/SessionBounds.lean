import Mathlib.Order.Nat
import LatexRenderer.Machine.Ranking
import LatexRenderer.Model.Auth.BrowserSessions

/-! # Bounds of browser sessions

A new session leaves at most the limits of sessions that are not revoked, and nothing else adds one. What is not revoked
counts whether or not it has expired, so the bounds hold at every instant. No session ends after the absolute expiry of the
login that it goes back to.
-/

namespace LatexRenderer

open Machine

variable {κ υ : Type} [LinearOrder κ] [DecidableEq υ] {rows : List (WebSessionRow κ υ)} {row : WebSessionRow κ υ} {now : ℕ}

/-- The sessions of a selection that are not revoked. -/
def unrevoked (selects : υ → Bool) (rows : List (WebSessionRow κ υ)) : Nat :=
  rows.countP fun row => selects row.userId && row.revokedAt.isNone

/-- What every statement keeps. -/
structure SessionsBounded (rows : List (WebSessionRow κ υ)) : Prop where
  distinct : (rows.map (·.tokenHash)).Nodup
  perUser : ∀ user, unrevoked (fun other => decide (other = user)) rows ≤ maximumActiveSessionsPerUser
  globally : unrevoked (fun _ => true) rows ≤ maximumActiveSessionsGlobal
  capped : ∀ row ∈ rows, row.absoluteExpiresAt ≤ row.loginExpiresAt

omit [LinearOrder κ] in
theorem sessionsBounded_nil : SessionsBounded ([] : List (WebSessionRow κ υ)) := by
  constructor
  · exact List.nodup_nil
  · intro user
    rw [unrevoked, List.countP_nil]
    exact Nat.zero_le _
  · rw [unrevoked, List.countP_nil]
    exact Nat.zero_le _
  · intro row never
    cases never

section Changes

variable {selects : υ → Bool} {change : WebSessionRow κ υ → WebSessionRow κ υ} {keep : WebSessionRow κ υ → Bool}

/-- A change of rows that revives none. -/
structure Retires (change : WebSessionRow κ υ → WebSessionRow κ υ) : Prop where
  token : ∀ row, (change row).tokenHash = row.tokenHash
  user : ∀ row, (change row).userId = row.userId
  absolute : ∀ row, (change row).absoluteExpiresAt = row.absoluteExpiresAt
  login : ∀ row, (change row).loginExpiresAt = row.loginExpiresAt
  revoked : ∀ row, (change row).revokedAt = none → row.revokedAt = none

omit [LinearOrder κ] [DecidableEq υ] in
theorem Retires.unrevoked_le (retires : Retires change) : unrevoked selects (rows.map change) ≤ unrevoked selects rows := by
  rw [unrevoked, List.countP_map]
  refine List.countP_mono_left fun row _ counted => ?_
  simp only [Function.comp_apply, retires.user, Bool.and_eq_true, Option.isNone_iff_eq_none] at counted
  simp only [counted.1, retires.revoked row counted.2, Option.isNone_none, Bool.and_self]

omit [LinearOrder κ] [DecidableEq υ] in
theorem Retires.tokens (retires : Retires change) : (rows.map change).map (·.tokenHash) = rows.map (·.tokenHash) := by
  rw [List.map_map]
  exact List.map_congr_left fun row _ => retires.token row

omit [LinearOrder κ] in
theorem SessionsBounded.map (bounded : SessionsBounded rows) (retires : Retires change) : SessionsBounded (rows.map change) where
  distinct := by
    rw [retires.tokens]
    exact bounded.distinct
  perUser user := Nat.le_trans retires.unrevoked_le (bounded.perUser user)
  globally := Nat.le_trans retires.unrevoked_le bounded.globally
  capped row member := by
    obtain ⟨old, there, rfl⟩ := List.mem_map.mp member
    rw [retires.absolute, retires.login]
    exact bounded.capped old there

omit [LinearOrder κ] in
theorem SessionsBounded.filter (bounded : SessionsBounded rows) : SessionsBounded (rows.filter keep) where
  distinct := bounded.distinct.sublist (List.filter_sublist.map _)
  perUser user := Nat.le_trans List.filter_sublist.countP_le (bounded.perUser user)
  globally := Nat.le_trans List.filter_sublist.countP_le bounded.globally
  capped row member := bounded.capped row (List.mem_of_mem_filter member)

omit [LinearOrder κ] [DecidableEq υ] in
theorem Retires.some_rows (retires : Retires change) (chosen : WebSessionRow κ υ → Prop) [DecidablePred chosen] :
    Retires fun row => if chosen row then change row else row where
  token row := by
    split
    · exact retires.token row
    · rfl
  user row := by
    split
    · exact retires.user row
    · rfl
  absolute row := by
    split
    · exact retires.absolute row
    · rfl
  login row := by
    split
    · exact retires.login row
    · rfl
  revoked row revoked := by
    split at revoked
    · exact retires.revoked row revoked
    · exact revoked

omit [LinearOrder κ] [DecidableEq υ] in
theorem retires_revoke (instant : WebSessionRow κ υ → ℕ) :
    Retires fun row : WebSessionRow κ υ => { row with revokedAt := some (instant row) } :=
  ⟨fun _ => rfl, fun _ => rfl, fun _ => rfl, fun _ => rfl, fun _ revoked => by cases revoked⟩

omit [LinearOrder κ] [DecidableEq υ] in
theorem retires_seen (now idle : ℕ) : Retires fun row : WebSessionRow κ υ =>
    { row with
      lastSeenAt := now
      idleExpiresAt := idle } :=
  ⟨fun _ => rfl, fun _ => rfl, fun _ => rfl, fun _ => rfl, fun _ revoked => revoked⟩

omit [LinearOrder κ] [DecidableEq υ] in
theorem retires_revokeWhere (chosen : WebSessionRow κ υ → Bool) (now : ℕ) : Retires fun row : WebSessionRow κ υ =>
    if chosen row = true then { row with revokedAt := some (row.revokedAt.getD now) } else row :=
  (retires_revoke fun row => row.revokedAt.getD now).some_rows fun row => chosen row = true

omit [DecidableEq υ] in
theorem retires_touch (token : κ) (now idle : ℕ) : Retires fun row : WebSessionRow κ υ =>
    if row.tokenHash = token ∧ row.revokedAt = none then
      { row with
        lastSeenAt := now
        idleExpiresAt := idle }
    else row :=
  (retires_seen now idle).some_rows fun row => row.tokenHash = token ∧ row.revokedAt = none

omit [DecidableEq υ] in
theorem retires_victims (victims : List κ) (now : ℕ) : Retires fun row : WebSessionRow κ υ =>
    if victims.contains row.tokenHash = true then { row with revokedAt := some now } else row :=
  (retires_revoke fun _ => now).some_rows fun row => victims.contains row.tokenHash = true

end Changes

section Create

variable {selects : υ → Bool} {maximum : ℕ}

/-- Every row that is not revoked is active. -/
def Current (now : ℕ) (rows : List (WebSessionRow κ υ)) : Prop :=
  ∀ row ∈ rows, row.revokedAt.isNone = row.active now

omit [LinearOrder κ] [DecidableEq υ] in
theorem current_deleteExpired (rows : List (WebSessionRow κ υ)) : Current now (deleteExpiredSessions now rows) := by
  intro row member
  have kept := (List.mem_filter.mp member).2
  simp only [Bool.not_eq_true', Bool.or_eq_false_iff, decide_eq_false_iff_not, Nat.not_le] at kept
  obtain ⟨⟨absolute, idle⟩, -⟩ := kept
  simp [WebSessionRow.active, absolute, idle]

omit [DecidableEq υ] in
theorem Current.victims (current : Current now rows) (victims : List κ) : Current now (rows.map fun row =>
    if victims.contains row.tokenHash = true then { row with revokedAt := some now } else row) := by
  intro row member
  obtain ⟨old, there, rfl⟩ := List.mem_map.mp member
  split
  · rfl
  · exact current old there

omit [DecidableEq υ] in
theorem unrevoked_revokeOldest (selects : υ → Bool) (current : Current now rows) (distinct : (rows.map (·.tokenHash)).Nodup) :
    unrevoked selects (revokeOldest (fun row => selects row.userId && row.active now) now maximum rows) =
      unrevoked selects rows - maximum := by
  have same : unrevoked selects rows = rows.countP fun row => selects row.userId && row.active now :=
    List.countP_congr fun row member => by rw [current row member]
  rw [same, revokeOldest, unrevoked, List.countP_map]
  obtain ⟨victims, shape⟩ : ∃ victims, victims =
      (((rows.filter fun row => selects row.userId && row.active now).mergeSort WebSessionRow.before).take maximum).map
        (·.tokenHash) := ⟨_, rfl⟩
  have rest : (rows.countP fun row => (selects row.userId && row.active now) && !victims.contains row.tokenHash) =
      (rows.countP fun row => selects row.userId && row.active now) - maximum := shape ▸ countP_behind distinct
  rw [← rest, ← shape]
  refine List.countP_congr fun row member => ?_
  dsimp only [Function.comp_apply]
  split
  · next victim => simp only [victim, Option.isNone_some, Bool.and_false, Bool.not_true]
  · next spared => rw [current row member, Bool.eq_false_iff.mpr spared, Bool.not_false, Bool.and_true]

omit [LinearOrder κ] [DecidableEq υ] in
theorem count_eq (selects : υ → Bool) (current : Current now rows) :
    (rows.countP fun row => selects row.userId && row.active now) = unrevoked selects rows :=
  List.countP_congr fun row member => by rw [current row member]

theorem SessionsBounded.revokeOldest {chosen : WebSessionRow κ υ → Bool} (bounded : SessionsBounded rows) :
    SessionsBounded (revokeOldest chosen now maximum rows) :=
  bounded.map (retires_victims _ now)

theorem SessionsBounded.insert {next : List (WebSessionRow κ υ)} (bounded : SessionsBounded rows)
    (user : unrevoked (fun other => decide (other = row.userId)) rows < maximumActiveSessionsPerUser)
    (globally : unrevoked (fun _ => true) rows < maximumActiveSessionsGlobal)
    (capped : row.absoluteExpiresAt ≤ row.loginExpiresAt) (inserted : insertSession row rows = some next) :
    SessionsBounded next := by
  obtain ⟨fresh, same⟩ := (Option.ite_none_left_eq_some ..).mp inserted
  cases same
  have grown : ∀ selects : υ → Bool, unrevoked selects (rows ++ [row]) ≤ unrevoked selects rows + 1 ∧
      (selects row.userId = false → unrevoked selects (rows ++ [row]) = unrevoked selects rows) := by
    intro selects
    rw [unrevoked, List.countP_append, List.countP_singleton]
    constructor
    · split
      · exact Nat.le_refl _
      · exact Nat.le_succ _
    · intro apart
      rw [apart, Bool.false_and]
      rfl
  constructor
  · rw [List.map_append, List.map_singleton]
    refine List.nodup_append.mpr ⟨bounded.distinct, List.nodup_singleton _, fun a member b new same => ?_⟩
    obtain ⟨other, there, rfl⟩ := List.mem_map.mp member
    exact fresh (List.any_eq_true.mpr ⟨other, there, decide_eq_true (same.trans (List.mem_singleton.mp new))⟩)
  · intro other
    by_cases own : row.userId = other
    · cases own
      exact Nat.le_trans (grown _).1 user
    · rw [(grown fun name => decide (name = other)).2 (decide_eq_false own)]
      exact bounded.perUser other
  · exact Nat.le_trans (grown _).1 globally
  · intro other member
    rcases List.mem_append.mp member with there | new
    · exact bounded.capped other there
    · rw [List.mem_singleton.mp new]
      exact capped

theorem room_for_user (user : υ) (current : Current now rows) (distinct : (rows.map (·.tokenHash)).Nodup) :
    unrevoked (fun other => decide (other = user)) (revokeOldestActiveSessionsForUser user now
      (activeSessionCountForUser user now rows + 1 - maximumActiveSessionsPerUser) rows) < maximumActiveSessionsPerUser := by
  have own : activeSessionCountForUser user now rows = unrevoked (fun other => decide (other = user)) rows :=
    count_eq (fun other => decide (other = user)) current
  have positive : 0 < maximumActiveSessionsPerUser := by decide
  refine Nat.lt_of_le_of_lt (Nat.le_of_eq (unrevoked_revokeOldest (fun other => decide (other = user)) current distinct)) ?_
  rw [own]
  omega

omit [DecidableEq υ] in
theorem room_globally (current : Current now rows) (distinct : (rows.map (·.tokenHash)).Nodup) :
    unrevoked (fun _ => true) (revokeOldestActiveSessions now
      (activeSessionCount now rows + 1 - maximumActiveSessionsGlobal) rows) < maximumActiveSessionsGlobal := by
  have all : activeSessionCount now rows = unrevoked (fun _ => true) rows := count_eq (fun _ => true) current
  have positive : 0 < maximumActiveSessionsGlobal := by decide
  refine Nat.lt_of_le_of_lt (Nat.le_of_eq (unrevoked_revokeOldest (fun _ => true) current distinct)) ?_
  rw [all]
  omega

/-- A new session leaves room for itself, and goes no further than the login it goes back to. -/
theorem SessionsBounded.create {durations : SessionDurations} {token : κ} {user : υ} {capExpiresAt login : Option ℕ}
    {next : List (WebSessionRow κ υ)} (bounded : SessionsBounded rows)
    (made : createSession durations now token user capExpiresAt login rows = some next)
    (within : ∀ expires, login = some expires → ∃ cap, capExpiresAt = some cap ∧ cap ≤ expires) : SessionsBounded next := by
  obtain ⟨-, inserted⟩ := (Option.ite_none_left_eq_some ..).mp made
  have first : SessionsBounded (deleteExpiredSessions now rows) := bounded.filter
  have current : Current now (deleteExpiredSessions now rows) := current_deleteExpired rows
  generalize deleteExpiredSessions now rows = rows at first current inserted
  have room := room_for_user user current first.distinct
  have second : SessionsBounded (revokeOldestActiveSessionsForUser user now
      (activeSessionCountForUser user now rows + 1 - maximumActiveSessionsPerUser) rows) := first.revokeOldest
  have still : Current now (revokeOldestActiveSessionsForUser user now
      (activeSessionCountForUser user now rows + 1 - maximumActiveSessionsPerUser) rows) := current.victims _
  generalize revokeOldestActiveSessionsForUser user now
    (activeSessionCountForUser user now rows + 1 - maximumActiveSessionsPerUser) rows = rows at room second still inserted
  have third : SessionsBounded (revokeOldestActiveSessions now
      (activeSessionCount now rows + 1 - maximumActiveSessionsGlobal) rows) := second.revokeOldest
  refine third.insert ?_ (room_globally still second.distinct) ?_ inserted
  · exact Nat.lt_of_le_of_lt (retires_victims _ now).unrevoked_le room
  · cases goesBack : login with
    | none => exact Nat.le_refl _
    | some expires =>
      obtain ⟨cap, rfl, below⟩ := within expires goesBack
      exact Nat.le_trans (Nat.min_le_right _ _) below

end Create

section Runs

variable {durations : SessionDurations} {s t : BrowserSessions κ υ} {event : SessionEvent κ υ}

/-- The rows are within the bounds, and so is what requests have read. -/
structure SessionsSound (s : BrowserSessions κ υ) : Prop where
  rows : SessionsBounded s.rows
  read : ∀ row ∈ s.read, row.absoluteExpiresAt ≤ row.loginExpiresAt

theorem sessionsSound_step (sound : SessionsSound s) (taken : s.step durations event = some t) : SessionsSound t := by
  cases event with
  | login now token user capExpiresAt =>
    obtain ⟨rows, made, rfl⟩ := Option.map_eq_some_iff.mp taken
    exact ⟨sound.rows.create made (fun expires never => by cases never), sound.read⟩
  | getSession token =>
    obtain ⟨row, found, rfl⟩ := Option.map_eq_some_iff.mp taken
    refine ⟨sound.rows, fun other member => ?_⟩
    rcases List.mem_cons.mp member with rfl | earlier
    · exact sound.rows.capped _ (List.mem_of_find?_eq_some found)
    · exact sound.read other earlier
  | touch now row =>
    obtain ⟨-, same⟩ := (Option.ite_none_right_eq_some ..).mp taken
    cases same
    exact ⟨sound.rows.map (retires_touch _ _ _), sound.read⟩
  | revoke now token =>
    cases taken
    exact ⟨sound.rows.map (retires_revokeWhere _ _), sound.read⟩
  | repair now row token =>
    obtain ⟨seen, replaced⟩ := (Option.ite_none_right_eq_some ..).mp taken
    obtain ⟨rows, made, rfl⟩ := Option.map_eq_some_iff.mp replaced
    refine ⟨sound.rows.create made fun expires same => ?_, sound.read⟩
    exact ⟨_, rfl, Option.some.inj same ▸ sound.read row seen⟩
  | revokeUser now user =>
    cases taken
    exact ⟨sound.rows.map (retires_revokeWhere _ _), sound.read⟩
  | retire now outside =>
    cases taken
    exact ⟨sound.rows.map (retires_revokeWhere _ _), sound.read⟩
  | cleanup now =>
    cases taken
    exact ⟨sound.rows.filter, sound.read⟩

theorem sessionsSound_reachable (reached : Reachable (sessionMachine κ υ durations) s) : SessionsSound s := by
  refine reached.induction (P := SessionsSound) ?_ fun _ taken sound => sessionsSound_step sound taken
  rintro s rfl
  exact ⟨sessionsBounded_nil, fun _ never => by cases never⟩

omit [LinearOrder κ] [DecidableEq υ] in
theorem active_le_unrevoked (selects : υ → Bool) (now : ℕ) :
    (rows.countP fun row => selects row.userId && row.active now) ≤ unrevoked selects rows := by
  refine List.countP_mono_left fun row _ counted => ?_
  simp only [WebSessionRow.active, Bool.and_eq_true] at counted ⊢
  exact ⟨counted.1, counted.2.1.1⟩

/-- After any interleaving of logins, replaced sessions, logouts, revocations and cleanups, and at every instant: the active
sessions are within both limits, and no session that is active or accepted from what a request has read has reached the
absolute expiry of its original login. -/
theorem browserSessions_bounded (reached : Reachable (sessionMachine κ υ durations) s) (now : ℕ) :
    (∀ user, activeSessionCountForUser user now s.rows ≤ maximumActiveSessionsPerUser) ∧
      activeSessionCount now s.rows ≤ maximumActiveSessionsGlobal ∧
      ∀ row, row ∈ s.rows ∨ row ∈ s.read → row.active now = true → now < row.loginExpiresAt := by
  have sound := sessionsSound_reachable reached
  refine ⟨fun user => ?_, ?_, fun row member active => ?_⟩
  · exact Nat.le_trans (active_le_unrevoked (fun other => decide (other = user)) now) (sound.rows.perUser user)
  · exact Nat.le_trans (active_le_unrevoked (fun _ => true) now) sound.rows.globally
  · simp only [WebSessionRow.active, Bool.and_eq_true, decide_eq_true_eq] at active
    exact Nat.lt_of_lt_of_le active.2 (member.elim (sound.rows.capped row) (sound.read row))

/-- A login, a read of its session, and the repair of its CSRF token a minute later. -/
theorem browserSessions_bounded_repaired : ∃ s : BrowserSessions ℕ ℕ, s.rows.map (·.tokenHash) = [2] ∧
    s.rows.map (·.loginExpiresAt) = [28800000] ∧
      (∀ user, activeSessionCountForUser user 60000 s.rows ≤ maximumActiveSessionsPerUser) ∧
      activeSessionCount 60000 s.rows ≤ maximumActiveSessionsGlobal ∧
      ∀ row, row ∈ s.rows ∨ row ∈ s.read → row.active 60000 = true → 60000 < row.loginExpiresAt := by
  have passes : ((replay? (BrowserSessions.step ⟨1800000, 28800000, by decide, by decide⟩) ⟨[], []⟩
      [.login 0 1 7 none, .getSession 1, .revoke 60000 1, .repair 60000 ⟨1, 7, 0, 0, 1800000, 28800000, none, 28800000⟩ 2]).any
        fun s => decide (s.rows.map (·.tokenHash) = [2]) &&
          decide (s.rows.map (·.loginExpiresAt) = [28800000])) = true := by decide
  obtain ⟨s, run, passed⟩ := exists_run_of_replay? passes
  rw [Bool.and_eq_true, decide_eq_true_eq, decide_eq_true_eq] at passed
  exact ⟨s, passed.1, passed.2, browserSessions_bounded ⟨_, _, rfl, run⟩ 60000⟩

end Runs

end LatexRenderer
