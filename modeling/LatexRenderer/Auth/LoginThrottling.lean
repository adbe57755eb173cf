import Mathlib.Order.Nat
import Mathlib.Tactic.IntervalCases
import LatexRenderer.Machine.Ranking
import LatexRenderer.Model.Auth.LoginAttempts

/-! # A blocked login key

A failed attempt on other keys keeps the row of a blocked key unless it finds so many rows ahead of it that the row is
beyond the maximum. Nothing else on other keys removes the row.
-/

namespace LatexRenderer

open Machine

variable {κ : Type} [LinearOrder κ]

section Rows

variable {rows : List (AuthLoginAttemptRow κ)} {row input : AuthLoginAttemptRow κ} {key other : κ} {keys : List κ}

theorem getLoginAttempt_eq_some (found : getLoginAttempt key rows = some row) : row ∈ rows ∧ row.keyHash = key :=
  ⟨List.mem_of_find?_eq_some found, by simpa using List.find?_some found⟩

theorem getLoginAttempt_of_mem (distinct : (rows.map (·.keyHash)).Nodup) (member : row ∈ rows) :
    getLoginAttempt row.keyHash rows = some row := by
  cases found : getLoginAttempt row.keyHash rows with
  | none => exact absurd (decide_eq_true rfl) (List.find?_eq_none.mp found row member)
  | some first =>
    obtain ⟨there, same⟩ := getLoginAttempt_eq_some found
    rw [List.inj_on_of_nodup_map distinct there member same]

theorem keys_putLoginAttempt (distinct : (rows.map (·.keyHash)).Nodup) :
    ((putLoginAttempt input rows).map (·.keyHash)).Nodup := by
  unfold putLoginAttempt
  split
  · have kept : (rows.map fun row => if row.keyHash = input.keyHash then input else row).map (·.keyHash) =
        rows.map (·.keyHash) := by
      rw [List.map_map]
      refine List.map_congr_left fun row _ => ?_
      show (if row.keyHash = input.keyHash then input else row).keyHash = row.keyHash
      split
      · next same => exact same.symm
      · rfl
    rw [kept]
    exact distinct
  · next absent =>
    rw [List.map_append, List.map_singleton]
    refine List.nodup_append.mpr ⟨distinct, List.nodup_singleton _, fun a member b new same => ?_⟩
    obtain ⟨row, there, rfl⟩ := List.mem_map.mp member
    exact absent (List.any_eq_true.mpr ⟨row, there, decide_eq_true (same.trans (List.mem_singleton.mp new))⟩)

theorem getLoginAttempt_put (apart : input.keyHash ≠ key) :
    getLoginAttempt key (putLoginAttempt input rows) = getLoginAttempt key rows := by
  unfold putLoginAttempt getLoginAttempt
  split
  · rw [List.find?_map]
    have kept : ((fun row : AuthLoginAttemptRow κ => decide (row.keyHash = key)) ∘
        fun row => if row.keyHash = input.keyHash then input else row) = fun row => decide (row.keyHash = key) := by
      funext row
      show decide ((if row.keyHash = input.keyHash then input else row).keyHash = key) = _
      split
      · next same => rw [same]
      · rfl
    rw [kept]
    cases found : rows.find? fun row => decide (row.keyHash = key) with
    | none => rfl
    | some row =>
      have own : row.keyHash = key := by simpa using List.find?_some found
      rw [Option.map_some, if_neg fun same => apart (same.symm.trans own)]
  · rw [List.find?_append, List.find?_cons_of_neg (by simpa using apart), List.find?_nil, Option.or_none]

theorem getLoginAttempt_filter {keep : AuthLoginAttemptRow κ → Bool} (kept : ∀ row ∈ rows, row.keyHash = key → keep row = true) :
    getLoginAttempt key (rows.filter keep) = getLoginAttempt key rows := by
  unfold getLoginAttempt
  rw [List.find?_filter]
  induction rows with
  | nil => rfl
  | cons row rows ih =>
    have rest := ih fun row there => kept row (List.mem_cons_of_mem _ there)
    by_cases own : row.keyHash = key
    · rw [List.find?_cons_of_pos (by simp [own, kept row List.mem_cons_self own]), List.find?_cons_of_pos (by simp [own])]
    · rw [List.find?_cons_of_neg (by simp [own]), List.find?_cons_of_neg (by simp [own]), rest]

theorem getLoginAttempt_clear (apart : ∀ hash ∈ keys, hash ≠ key) :
    getLoginAttempt key (clearLoginAttempts keys rows) = getLoginAttempt key rows := by
  unfold clearLoginAttempts
  induction keys generalizing rows with
  | nil => rfl
  | cons hash keys ih =>
    rw [List.foldl_cons, ih fun hash there => apart hash (List.mem_cons_of_mem _ there)]
    refine getLoginAttempt_filter fun row _ own => ?_
    rw [Bool.not_eq_true']
    exact decide_eq_false fun same => apart hash List.mem_cons_self (same.symm.trans own)

theorem keys_clearLoginAttempts (distinct : (rows.map (·.keyHash)).Nodup) :
    ((clearLoginAttempts keys rows).map (·.keyHash)).Nodup := by
  unfold clearLoginAttempts
  induction keys generalizing rows with
  | nil => exact distinct
  | cons hash keys ih => exact ih (distinct.sublist (List.filter_sublist.map _))

end Rows

namespace AuthLoginAttemptRow

theorem before_trans (a b c : AuthLoginAttemptRow κ) (first : a.before b = true) (second : b.before c = true) :
    a.before c = true := by
  simp only [before, Bool.or_eq_true, Bool.and_eq_true, decide_eq_true_eq] at first second ⊢
  rcases first with first | ⟨same, larger⟩
  · left
    rcases second with second | ⟨same, -⟩
    · exact Nat.lt_trans second first
    · exact same ▸ first
  · rcases second with second | ⟨same', larger'⟩
    · exact .inl (same ▸ second)
    · exact .inr ⟨same.trans same', larger'.trans larger⟩

theorem before_total (a b : AuthLoginAttemptRow κ) : (a.before b || b.before a) = true := by
  simp only [before, Bool.or_eq_true, Bool.and_eq_true, decide_eq_true_eq]
  rcases Nat.lt_trichotomy a.updatedAt b.updatedAt with earlier | same | later
  · exact .inr (.inl earlier)
  · exact (le_total b.keyHash a.keyHash).imp (fun le => .inr ⟨same, le⟩) fun le => .inr ⟨same.symm, le⟩
  · exact .inl (.inl later)

theorem before_antisymm {a b : AuthLoginAttemptRow κ} (first : a.before b = true) (second : b.before a = true) :
    a.keyHash = b.keyHash := by
  simp only [before, Bool.or_eq_true, Bool.and_eq_true, decide_eq_true_eq] at first second
  rcases first with first | ⟨same, le⟩
  · rcases second with second | ⟨same, -⟩ <;> omega
  · rcases second with second | ⟨-, le'⟩
    · omega
    · exact le_antisymm le' le

end AuthLoginAttemptRow

/-- How many rows a pruning finds ahead of a row: those updated later, and those of larger keys updated at the same
time. -/
def rowsAhead (row : AuthLoginAttemptRow κ) (rows : List (AuthLoginAttemptRow κ)) : Nat :=
  rows.countP fun other => decide (row.updatedAt < other.updatedAt) ||
    decide (other.updatedAt = row.updatedAt) && decide (row.keyHash < other.keyHash)

section Prune

variable {rows : List (AuthLoginAttemptRow κ)} {row : AuthLoginAttemptRow κ} {key : κ} {keys : List κ} {old maximum now : ℕ}

theorem not_before (row other : AuthLoginAttemptRow κ) : (!row.before other) =
    (decide (row.updatedAt < other.updatedAt) ||
      decide (other.updatedAt = row.updatedAt) && decide (row.keyHash < other.keyHash)) := by
  rw [Bool.eq_iff_iff]
  simp only [AuthLoginAttemptRow.before, Bool.not_eq_true', Bool.or_eq_false_iff, Bool.and_eq_false_iff,
    decide_eq_false_iff_not, Bool.or_eq_true, Bool.and_eq_true, decide_eq_true_eq, Nat.not_lt, not_le]
  constructor
  · rintro ⟨le, apart | larger⟩
    · exact .inl (by omega)
    · rcases Nat.lt_or_eq_of_le le with less | same
      · exact .inl less
      · exact .inr ⟨same.symm, larger⟩
  · rintro (less | ⟨same, larger⟩)
    · exact ⟨by omega, .inl (by omega)⟩
    · exact ⟨by omega, .inr larger⟩

/-- A pruning keeps a row that has not aged exactly if it finds fewer than the maximum ahead of it. -/
theorem getLoginAttempt_prune (distinct : (rows.map (·.keyHash)).Nodup) (found : getLoginAttempt key rows = some row)
    (young : old ≤ row.updatedAt) :
    getLoginAttempt key (pruneLoginAttempts old maximum rows) =
      if rowsAhead row rows < maximum then some row else none := by
  obtain ⟨member, own⟩ := getLoginAttempt_eq_some found
  have kept : row ∈ rows.filter fun row => !decide (row.updatedAt < old) :=
    List.mem_filter.mpr ⟨member, by simpa using young⟩
  have ahead : (rows.filter fun row => !decide (row.updatedAt < old)).countP (fun other => !row.before other) =
      rowsAhead row rows := by
    rw [List.countP_filter, rowsAhead]
    refine List.countP_congr fun other _ => ?_
    rw [not_before]
    simp only [Bool.and_eq_true, Bool.or_eq_true, decide_eq_true_eq, Bool.not_eq_true', decide_eq_false_iff_not, Nat.not_lt]
    exact ⟨And.left, fun ahead => ⟨ahead, by rcases ahead with less | ⟨same, -⟩ <;> omega⟩⟩
  unfold pruneLoginAttempts
  dsimp only
  have fewer : ((rows.filter fun row => !decide (row.updatedAt < old)).map (·.keyHash)).Nodup :=
    distinct.sublist (List.filter_sublist.map _)
  generalize (rows.filter fun row => !decide (row.updatedAt < old)) = rest at kept ahead fewer
  have rank : row ∈ (rest.mergeSort AuthLoginAttemptRow.before).drop maximum ↔
      row ∈ rest ∧ maximum ≤ rest.countP fun other => !row.before other :=
    mem_drop_mergeSort AuthLoginAttemptRow.before_trans AuthLoginAttemptRow.before_total
      (fun a left b right first second => List.inj_on_of_nodup_map fewer left right
        (AuthLoginAttemptRow.before_antisymm first second))
      (List.Nodup.of_map _ fewer)
  rw [ahead] at rank
  have listed : key ∈ ((rest.mergeSort AuthLoginAttemptRow.before).drop maximum).map (·.keyHash) ↔
      maximum ≤ rowsAhead row rows := by
    rw [← own, List.mem_map]
    constructor
    · rintro ⟨other, dropped, same⟩
      have there := List.mem_mergeSort.mp (List.mem_of_mem_drop dropped)
      rw [List.inj_on_of_nodup_map fewer there kept same] at dropped
      exact (rank.mp dropped).2
    · exact fun many => ⟨row, rank.mpr ⟨kept, many⟩, rfl⟩
  split
  · next few =>
    have stays : getLoginAttempt key rest = some row := own ▸ getLoginAttempt_of_mem fewer kept
    rw [getLoginAttempt_filter, stays]
    intro other _ same
    rw [Bool.not_eq_true', ← Bool.not_eq_true, List.contains_iff_mem, same, listed]
    omega
  · next many =>
    refine List.find?_eq_none.mpr fun other there => ?_
    have unlisted := (List.mem_filter.mp there).2
    rw [Bool.not_eq_true', ← Bool.not_eq_true, List.contains_iff_mem] at unlisted
    simp only [decide_eq_true_eq]
    exact fun same => unlisted (same ▸ listed.mpr (Nat.le_of_not_lt many))

theorem keys_pruneLoginAttempts (distinct : (rows.map (·.keyHash)).Nodup) :
    ((pruneLoginAttempts old maximum rows).map (·.keyHash)).Nodup :=
  distinct.sublist ((List.filter_sublist.trans List.filter_sublist).map _)

theorem keys_recordLoginFailure (distinct : (rows.map (·.keyHash)).Nodup) :
    ((recordLoginFailure now keys rows).map (·.keyHash)).Nodup := by
  unfold recordLoginFailure
  generalize maximumLoginAttemptRows - keys.length = maximum
  have pruned : ((pruneLoginAttempts (now - loginRetentionMs) maximum rows).map (·.keyHash)).Nodup :=
    keys_pruneLoginAttempts distinct
  generalize pruneLoginAttempts (now - loginRetentionMs) maximum rows = rows at pruned
  induction keys generalizing rows with
  | nil => exact pruned
  | cons key keys ih => exact ih _ (keys_putLoginAttempt pruned)

theorem getLoginAttempt_record (apart : ∀ hash ∈ keys, hash ≠ key) :
    getLoginAttempt key (recordLoginFailure now keys rows) =
      getLoginAttempt key (pruneLoginAttempts (now - loginRetentionMs) (maximumLoginAttemptRows - keys.length) rows) := by
  unfold recordLoginFailure
  generalize maximumLoginAttemptRows - keys.length = maximum
  generalize pruneLoginAttempts (now - loginRetentionMs) maximum rows = rows
  induction keys generalizing rows with
  | nil => rfl
  | cons hash keys ih =>
    rw [List.foldl_cons, ih fun hash there => apart hash (List.mem_cons_of_mem _ there)]
    exact getLoginAttempt_put (apart hash List.mem_cons_self)

end Prune

section Blocks

variable {rows : List (AuthLoginAttemptRow κ)} {row input : AuthLoginAttemptRow κ} {key : κ} {keys : List κ} {old maximum now : ℕ}

/-- The table has one row for a key, and a block ends a fixed time after the update that set it. -/
structure WellBlocked (rows : List (AuthLoginAttemptRow κ)) : Prop where
  distinct : (rows.map (·.keyHash)).Nodup
  ends : ∀ row ∈ rows, ∀ deadline, row.blockedUntil = some deadline → deadline = row.updatedAt + loginBlockMs

theorem mem_putLoginAttempt (member : row ∈ putLoginAttempt input rows) : row = input ∨ row ∈ rows := by
  unfold putLoginAttempt at member
  split at member
  · obtain ⟨old, there, rfl⟩ := List.mem_map.mp member
    split
    · exact .inl rfl
    · exact .inr there
  · exact (List.mem_append.mp member).symm.imp_left List.mem_singleton.mp

theorem clearLoginAttempts_subset (member : row ∈ clearLoginAttempts keys rows) : row ∈ rows := by
  unfold clearLoginAttempts at member
  induction keys generalizing rows with
  | nil => exact member
  | cons hash keys ih => exact List.mem_of_mem_filter (ih member)

theorem pruneLoginAttempts_subset (member : row ∈ pruneLoginAttempts old maximum rows) : row ∈ rows :=
  List.mem_of_mem_filter (List.mem_of_mem_filter member)

theorem WellBlocked.record (well : WellBlocked rows) : WellBlocked (recordLoginFailure now keys rows) := by
  refine ⟨keys_recordLoginFailure well.distinct, ?_⟩
  have ends : ∀ row ∈ pruneLoginAttempts (now - loginRetentionMs) (maximumLoginAttemptRows - keys.length) rows,
      ∀ deadline, row.blockedUntil = some deadline → deadline = row.updatedAt + loginBlockMs :=
    fun row member => well.ends row (pruneLoginAttempts_subset member)
  unfold recordLoginFailure
  generalize maximumLoginAttemptRows - keys.length = maximum at ends
  generalize pruneLoginAttempts (now - loginRetentionMs) maximum rows = rows at ends
  induction keys generalizing rows with
  | nil => exact ends
  | cons key keys ih =>
    apply ih
    intro row member deadline block
    rcases mem_putLoginAttempt member with rfl | there
    · obtain ⟨-, same⟩ := (Option.ite_none_right_eq_some ..).mp block
      exact (Option.some.inj same).symm
    · exact ends row there deadline block

theorem WellBlocked.clear (well : WellBlocked rows) : WellBlocked (clearLoginAttempts keys rows) :=
  ⟨keys_clearLoginAttempts well.distinct, fun row member => well.ends row (clearLoginAttempts_subset member)⟩

theorem wellBlocked_reachable {s : LoginAttempts κ} (reached : Reachable (loginMachine κ) s) : WellBlocked s.rows := by
  refine reached.induction (P := fun s => WellBlocked s.rows) ?_ ?_
  · rintro s rfl
    exact ⟨List.nodup_nil, fun row never => by cases never⟩
  · rintro s event t - taken well
    cases event with
    | admitted now attempt =>
      obtain ⟨-, same⟩ := (Option.ite_none_left_eq_some ..).mp taken
      cases same
      exact well
    | failed now attempt =>
      obtain ⟨-, same⟩ := (Option.ite_none_right_eq_some ..).mp taken
      cases same
      exact well.record
    | succeeded now attempt =>
      obtain ⟨-, same⟩ := (Option.ite_none_right_eq_some ..).mp taken
      cases same
      exact well.clear

theorem getLoginAttempt_eq_none : getLoginAttempt key rows = none ↔ ∀ row ∈ rows, row.keyHash ≠ key := by
  rw [getLoginAttempt, List.find?_eq_none]
  simp only [decide_eq_true_eq]

end Blocks

section Runs

variable {s t : LoginAttempts κ} {event : LoginEvent κ} {events : List (LoginEvent κ)} {row : AuthLoginAttemptRow κ} {key : κ}
  {deadline : ℕ}

/-- A failed attempt finds fewer rows ahead of the row of the key than it leaves. -/
def LoginAttempts.LeavesRoom (s : LoginAttempts κ) (key : κ) : LoginEvent κ → Prop
  | .failed _ attempt => ∀ row, getLoginAttempt key s.rows = some row →
      rowsAhead row s.rows < maximumLoginAttemptRows - attempt.rateKeys.length
  | _ => True

/-- What a step on other keys does to the row of a blocked key. -/
theorem getLoginAttempt_step (well : WellBlocked s.rows) (found : getLoginAttempt key s.rows = some row)
    (block : row.blockedUntil = some deadline) (taken : s.step event = some t) (other : key ∉ event.attempt.rateKeys)
    (early : event.now < deadline) :
    (s.LeavesRoom key event → getLoginAttempt key t.rows = some row) ∧
      (¬s.LeavesRoom key event → getLoginAttempt key t.rows = none) := by
  have ends := well.ends row (getLoginAttempt_eq_some found).1 deadline block
  cases event with
  | admitted now attempt =>
    obtain ⟨-, same⟩ := (Option.ite_none_left_eq_some ..).mp taken
    cases same
    exact ⟨fun _ => found, fun crowded => absurd trivial crowded⟩
  | succeeded now attempt =>
    obtain ⟨-, same⟩ := (Option.ite_none_right_eq_some ..).mp taken
    cases same
    refine ⟨fun _ => ?_, fun crowded => absurd trivial crowded⟩
    refine (getLoginAttempt_clear fun hash there same => other ?_).trans found
    rw [List.mem_singleton.mp there] at same
    exact same ▸ List.mem_cons_self
  | failed now attempt =>
    obtain ⟨-, same⟩ := (Option.ite_none_right_eq_some ..).mp taken
    cases same
    have young : now - loginRetentionMs ≤ row.updatedAt := by
      have near : now < row.updatedAt + loginBlockMs := ends ▸ early
      have short : loginBlockMs ≤ loginRetentionMs := by decide
      omega
    have apart : ∀ hash ∈ attempt.rateKeys, hash ≠ key := fun hash there same => other (same ▸ there)
    have recorded : getLoginAttempt key (recordLoginFailure now attempt.rateKeys s.rows) =
        if rowsAhead row s.rows < maximumLoginAttemptRows - attempt.rateKeys.length then some row else none :=
      (getLoginAttempt_record apart).trans (getLoginAttempt_prune well.distinct found young)
    constructor
    · intro room
      exact recorded.trans (if_pos (room row found))
    · intro crowded
      refine recorded.trans (if_neg fun few => crowded fun row' found' => ?_)
      rw [Option.some.inj (found'.symm.trans found)]
      exact few

/-- No step on other keys makes a row of the key. -/
theorem absent_step (absent : getLoginAttempt key s.rows = none) (taken : s.step event = some t)
    (other : key ∉ event.attempt.rateKeys) : getLoginAttempt key t.rows = none := by
  cases event with
  | admitted now attempt =>
    obtain ⟨-, same⟩ := (Option.ite_none_left_eq_some ..).mp taken
    cases same
    exact absent
  | succeeded now attempt =>
    obtain ⟨-, same⟩ := (Option.ite_none_right_eq_some ..).mp taken
    cases same
    exact getLoginAttempt_eq_none.mpr fun row there => getLoginAttempt_eq_none.mp absent row (clearLoginAttempts_subset there)
  | failed now attempt =>
    obtain ⟨-, same⟩ := (Option.ite_none_right_eq_some ..).mp taken
    cases same
    have apart : ∀ hash ∈ attempt.rateKeys, hash ≠ key := fun hash there same => other (same ▸ there)
    refine (getLoginAttempt_record apart).trans ?_
    exact getLoginAttempt_eq_none.mpr fun row there => getLoginAttempt_eq_none.mp absent row (pruneLoginAttempts_subset there)

theorem absent_run (run : Run (loginMachine κ) s events t) (others : ∀ event ∈ events, key ∉ event.attempt.rateKeys)
    (absent : getLoginAttempt key s.rows = none) : getLoginAttempt key t.rows = none :=
  run.preserves (P := fun s => getLoginAttempt key s.rows = none)
    (fun member taken before => absent_step before taken (others _ member)) absent

/-- After a run on other keys the row is as it was if every step left room, and gone if one did not. -/
theorem getLoginAttempt_run (reached : Reachable (loginMachine κ) s) (found : getLoginAttempt key s.rows = some row)
    (block : row.blockedUntil = some deadline) (run : Run (loginMachine κ) s events t)
    (others : ∀ event ∈ events, key ∉ event.attempt.rateKeys) (early : ∀ event ∈ events, event.now < deadline) :
    getLoginAttempt key t.rows = some row ∧ (∀ before event after mid, events = before ++ event :: after →
        Run (loginMachine κ) s before mid → mid.LeavesRoom key event) ∨
      getLoginAttempt key t.rows = none ∧ ∃ before event after mid, events = before ++ event :: after ∧
        Run (loginMachine κ) s before mid ∧ ¬mid.LeavesRoom key event := by
  induction run with
  | nil s =>
    left
    exact ⟨found, fun before event after mid split => by simp at split⟩
  | @cons s next t event events taken rest ih =>
    obtain ⟨stays, leaves⟩ := getLoginAttempt_step (wellBlocked_reachable reached) found block taken
      (others _ List.mem_cons_self) (early _ List.mem_cons_self)
    have others' : ∀ event ∈ events, key ∉ event.attempt.rateKeys := fun event there => others event (List.mem_cons_of_mem _ there)
    by_cases room : s.LeavesRoom key event
    · rcases ih (reached.step taken) (stays room) others' fun event there => early event (List.mem_cons_of_mem _ there) with
        ⟨still, all⟩ | ⟨gone, before, crowded, after, mid, split, path, full⟩
      · refine .inl ⟨still, fun before other after mid split path => ?_⟩
        cases before with
        | nil =>
          cases split
          cases path
          exact room
        | cons first before =>
          cases split
          cases path with
          | cons first path =>
            rw [Option.some.inj (first.symm.trans taken)] at path
            exact all before other after mid rfl path
      · exact .inr ⟨gone, event :: before, crowded, after, mid, by rw [split]; rfl, .cons taken path, full⟩
    · exact .inr ⟨absent_run rest others' (leaves room), [], event, events, s, rfl, .nil s, room⟩

/-- A row that is still there blocks its key until the deadline. -/
theorem rateLimited_of_block {now : ℕ} {keys : List κ} {rows : List (AuthLoginAttemptRow κ)}
    (found : getLoginAttempt key rows = some row) (block : row.blockedUntil = some deadline) (early : now < deadline)
    (member : key ∈ keys) : rateLimited now keys rows = true := by
  refine List.any_eq_true.mpr ⟨key, member, ?_⟩
  rw [found, Option.bind_some, block, Option.any_some]
  exact decide_eq_true early

/-- A key that is blocked until a deadline stays blocked until then in a run of attempts on other keys, exactly if no
failed attempt of the run finds 9 998 rows ahead of that of the key. -/
theorem loginBlock_iff (reached : Reachable (loginMachine κ) s) (found : getLoginAttempt key s.rows = some row)
    (block : row.blockedUntil = some deadline) (run : Run (loginMachine κ) s events t)
    (others : ∀ event ∈ events, key ∉ event.attempt.rateKeys) (early : ∀ event ∈ events, event.now < deadline) :
    (∀ now < deadline, ∀ keys, key ∈ keys → rateLimited now keys t.rows = true) ↔
      ∀ before event after mid, events = before ++ event :: after → Run (loginMachine κ) s before mid →
        mid.LeavesRoom key event := by
  rcases getLoginAttempt_run reached found block run others early with ⟨still, all⟩ | ⟨gone, before, event, after, mid, split, path, full⟩
  · exact iff_of_true (fun now early keys member => rateLimited_of_block still block early member) all
  · refine iff_of_false (fun limited => ?_) fun all => full (all before event after mid split path)
    have positive : 0 < deadline := by
      rw [(wellBlocked_reachable reached).ends row (getLoginAttempt_eq_some found).1 deadline block]
      exact Nat.lt_of_lt_of_le (by decide) (Nat.le_add_left _ _)
    have never := limited 0 positive [key] List.mem_cons_self
    rw [rateLimited, List.any_cons, gone] at never
    cases never

end Runs

section Flood

variable {rows : List (AuthLoginAttemptRow κ)} {key : κ} {keys : List κ} {now : ℕ}

/-- A failure that finds a small and young table deletes nothing. -/
theorem recordLoginFailure_few (few : rows.length ≤ maximumLoginAttemptRows - keys.length)
    (young : ∀ row ∈ rows, now - loginRetentionMs ≤ row.updatedAt) :
    recordLoginFailure now keys rows = keys.foldl (fun rows key => countLoginFailure now key rows) rows := by
  have all : rows.filter (fun row => !decide (row.updatedAt < now - loginRetentionMs)) = rows := by
    refine List.filter_eq_self.mpr fun row member => ?_
    rw [Bool.not_eq_true']
    exact decide_eq_false (Nat.not_lt.mpr (young row member))
  have within : (rows.mergeSort AuthLoginAttemptRow.before).drop (maximumLoginAttemptRows - keys.length) = [] :=
    List.drop_eq_nil_of_le ((List.length_mergeSort rows).trans_le few)
  have kept : pruneLoginAttempts (now - loginRetentionMs) (maximumLoginAttemptRows - keys.length) rows = rows := by
    unfold pruneLoginAttempts
    dsimp only
    rw [all, within]
    exact List.filter_eq_self.mpr fun row _ => rfl
  rw [recordLoginFailure, kept]

theorem countLoginFailure_new (absent : getLoginAttempt key rows = none) :
    countLoginFailure now key rows = rows ++ [⟨key, 1, now, none, now⟩] := by
  have fresh : ¬rows.any (fun row => decide (row.keyHash = key)) = true := by
    rw [List.any_eq_true]
    rintro ⟨row, member, same⟩
    exact getLoginAttempt_eq_none.mp absent row member (of_decide_eq_true same)
  rw [countLoginFailure, absent]
  exact if_neg fresh

/-- An attempt that is admitted and fails at once, with a small and young table. -/
theorem failedAttempt_run {s : LoginAttempts κ} (attempt : LoginAttempt κ) (free : rateLimited now attempt.rateKeys s.rows = false)
    (few : s.rows.length ≤ maximumLoginAttemptRows - attempt.rateKeys.length)
    (young : ∀ row ∈ s.rows, now - loginRetentionMs ≤ row.updatedAt) :
    Run (loginMachine κ) s [.admitted now attempt, .failed now attempt]
      ⟨attempt.rateKeys.foldl (fun rows key => countLoginFailure now key rows) s.rows, s.verifying⟩ := by
  have admitted : s.step (.admitted now attempt) = some { s with verifying := attempt :: s.verifying } :=
    if_neg (Bool.eq_false_iff.mp free)
  refine .cons admitted (.single ?_)
  refine (if_pos List.mem_cons_self).trans ?_
  rw [← recordLoginFailure_few few young]
  simp

omit [LinearOrder κ] in
theorem room_of_attempt (attempt : LoginAttempt κ) : maximumLoginAttemptRows - attempt.rateKeys.length = 9998 := rfl

/-- The rows of the keys 0 and 1 after five failures at time 0, and then one row for each of the next keys. -/
def floodRows (count : Nat) : List (AuthLoginAttemptRow Nat) :=
  [⟨0, 5, 0, some 900000, 0⟩, ⟨1, 5, 0, some 900000, 0⟩] ++ (List.range count).map fun index => ⟨index + 2, 1, 1, none, 1⟩

/-- Attempts on fresh keys, a millisecond later. -/
def floodEvents (count : Nat) : List (LoginEvent Nat) :=
  (List.range count).flatMap fun index =>
    [.admitted 1 ⟨2 * index + 2, 2 * index + 3⟩, .failed 1 ⟨2 * index + 2, 2 * index + 3⟩]

theorem getLoginAttempt_floodRows_zero (count : ℕ) :
    getLoginAttempt 0 (floodRows count) = some ⟨0, 5, 0, some 900000, 0⟩ :=
  List.find?_cons_of_pos rfl

theorem floodRows_succ (count : ℕ) : floodRows (count + 1) = floodRows count ++ [⟨count + 2, 1, 1, none, 1⟩] := by
  rw [floodRows, List.range_succ, List.map_append, ← List.append_assoc]
  rfl

theorem length_floodRows (count : ℕ) : (floodRows count).length = count + 2 := by
  rw [floodRows, List.length_append, List.length_map, List.length_range]
  exact Nat.add_comm 2 count

theorem keyHash_lt_of_floodRows {count : ℕ} {row : AuthLoginAttemptRow ℕ} (member : row ∈ floodRows count) :
    row.keyHash < count + 2 := by
  rcases List.mem_append.mp member with first | fresh
  · rcases List.mem_cons.mp first with rfl | first
    · exact Nat.succ_pos _
    · rw [List.mem_singleton.mp first]
      exact Nat.lt_add_left count (by decide)
  · obtain ⟨index, small, rfl⟩ := List.mem_map.mp fresh
    exact Nat.add_lt_add_right (List.mem_range.mp small) 2

theorem getLoginAttempt_floodRows {count key : ℕ} (fresh : count + 2 ≤ key) : getLoginAttempt key (floodRows count) = none :=
  getLoginAttempt_eq_none.mpr fun _ member => (Nat.lt_of_lt_of_le (keyHash_lt_of_floodRows member) fresh).ne

theorem countLoginFailure_flood (count : ℕ) : countLoginFailure 1 (count + 2) (floodRows count) = floodRows (count + 1) := by
  rw [countLoginFailure_new (getLoginAttempt_floodRows (Nat.le_refl _)), floodRows_succ]

theorem rateLimited_flood (count : ℕ) : rateLimited 1 [count + 2, count + 3] (floodRows count) = false := by
  simp only [rateLimited, List.any_cons, List.any_nil, getLoginAttempt_floodRows (Nat.le_refl _),
    getLoginAttempt_floodRows (Nat.le_succ (count + 2)), Option.bind_none, Option.any_none, Bool.or_self]

theorem floodRows_run {count : ℕ} (few : count ≤ 4999) :
    Run (loginMachine ℕ) ⟨floodRows 0, []⟩ (floodEvents count) ⟨floodRows (2 * count), []⟩ := by
  induction count with
  | zero => exact .nil _
  | succ count ih =>
    have attempt := failedAttempt_run (s := ⟨floodRows (2 * count), []⟩) ⟨2 * count + 2, 2 * count + 3⟩
      (rateLimited_flood (2 * count)) (by
        rw [room_of_attempt, length_floodRows]
        omega) fun row _ => Nat.zero_le _
    have rows : (LoginAttempt.rateKeys ⟨2 * count + 2, 2 * count + 3⟩).foldl (fun rows key => countLoginFailure 1 key rows)
        (floodRows (2 * count)) = floodRows (2 * (count + 1)) := by
      show countLoginFailure 1 (2 * count + 1 + 2) (countLoginFailure 1 (2 * count + 2) (floodRows (2 * count))) = _
      rw [countLoginFailure_flood, countLoginFailure_flood]
      rfl
    rw [rows] at attempt
    rw [floodEvents, List.range_succ, List.flatMap_append, List.flatMap_singleton]
    exact (ih (Nat.le_of_succ_le few)).append attempt

/-- Five failures of one login name from one address. -/
theorem floodRows_reachable : Reachable (loginMachine ℕ) ⟨floodRows 0, []⟩ := by
  have attempts : ∀ count ≤ 5, ∃ rows : List (AuthLoginAttemptRow ℕ), Reachable (loginMachine ℕ) ⟨rows, []⟩ ∧
      rows = if count = 0 then [] else
        [⟨0, count, 0, if 5 ≤ count then some 900000 else none, 0⟩, ⟨1, count, 0, if 5 ≤ count then some 900000 else none, 0⟩] := by
    intro count few
    induction count with
    | zero => exact ⟨[], .init rfl, rfl⟩
    | succ count ih =>
      obtain ⟨rows, reached, shape⟩ := ih (Nat.le_of_succ_le few)
      have small : count ≤ 4 := Nat.le_of_succ_le_succ few
      have free : rateLimited 0 [0, 1] rows = false := by
        rw [shape]
        interval_cases count <;> decide
      have length : rows.length ≤ maximumLoginAttemptRows - (LoginAttempt.rateKeys ⟨0, 1⟩).length := by
        rw [shape, room_of_attempt]
        split <;> simp
      refine ⟨_, (failedAttempt_run (s := ⟨rows, []⟩) ⟨0, 1⟩ free length fun row _ => Nat.zero_le _).reachable reached, ?_⟩
      rw [shape]
      interval_cases count <;> decide
  obtain ⟨rows, reached, shape⟩ := attempts 5 (Nat.le_refl _)
  rw [shape] at reached
  exact reached

theorem floodEvents_others (count : ℕ) : ∀ event ∈ floodEvents count, 0 ∉ event.attempt.rateKeys ∧ event.now < 900000 := by
  intro event member
  obtain ⟨index, -, here⟩ := List.mem_flatMap.mp member
  rcases List.mem_cons.mp here with rfl | here
  · exact ⟨by simp [LoginEvent.attempt, LoginAttempt.rateKeys], by simp [LoginEvent.now]⟩
  · rw [List.mem_singleton.mp here]
    exact ⟨by simp [LoginEvent.attempt, LoginAttempt.rateKeys], by simp [LoginEvent.now]⟩

/-- All fresh rows are ahead of that of the key 0. -/
theorem rowsAhead_flood (count : ℕ) : count ≤ rowsAhead ⟨0, 5, 0, some 900000, 0⟩ (floodRows count) := by
  have fresh : ((List.range count).map fun index => (⟨index + 2, 1, 1, none, 1⟩ : AuthLoginAttemptRow ℕ)).countP
      (fun other => decide (0 < other.updatedAt) || decide (other.updatedAt = 0) && decide (0 < other.keyHash)) = count := by
    rw [List.countP_map]
    exact (List.countP_eq_length.mpr fun index _ => rfl).trans List.length_range
  rw [rowsAhead, floodRows, List.countP_append]
  exact (Nat.le_of_eq fresh.symm).trans (Nat.le_add_left _ _)

/-- Three attempts on other keys leave the key 0 blocked. -/
theorem loginBlock_iff_three : (∀ now < 900000, ∀ keys, 0 ∈ keys → rateLimited now keys (floodRows 6) = true) ↔
    ∀ before event after mid, floodEvents 3 = before ++ event :: after →
      Run (loginMachine ℕ) ⟨floodRows 0, []⟩ before mid → mid.LeavesRoom 0 event :=
  loginBlock_iff floodRows_reachable (getLoginAttempt_floodRows_zero 0) rfl (floodRows_run (by decide))
    (fun event member => (floodEvents_others 3 event member).1) fun event member => (floodEvents_others 3 event member).2

/-- The next attempt after so many removes the row of the key 0. -/
theorem floodRows_overflow {count : ℕ} (many : 9998 ≤ count) (reached : Reachable (loginMachine ℕ) ⟨floodRows count, []⟩) :
    ∃ t, Run (loginMachine ℕ) ⟨floodRows count, []⟩
      [.admitted 1 ⟨count + 2, count + 3⟩, .failed 1 ⟨count + 2, count + 3⟩] t ∧ rateLimited 1 [0] t.rows = false := by
  have admitted : LoginAttempts.step ⟨floodRows count, []⟩ (.admitted 1 ⟨count + 2, count + 3⟩) =
      some ⟨floodRows count, [⟨count + 2, count + 3⟩]⟩ := if_neg (Bool.eq_false_iff.mp (rateLimited_flood count))
  obtain ⟨t, failed⟩ : ∃ t, LoginAttempts.step ⟨floodRows count, [⟨count + 2, count + 3⟩]⟩
      (.failed 1 ⟨count + 2, count + 3⟩) = some t := ⟨_, if_pos List.mem_cons_self⟩
  have found := getLoginAttempt_floodRows_zero count
  have other : 0 ∉ (LoginAttempt.rateKeys ⟨count + 2, count + 3⟩) := by simp [LoginAttempt.rateKeys]
  have crowded : ¬LoginAttempts.LeavesRoom ⟨floodRows count, [⟨count + 2, count + 3⟩]⟩ 0 (.failed 1 ⟨count + 2, count + 3⟩) := by
    intro room
    have few := room _ found
    rw [room_of_attempt] at few
    exact Nat.not_lt.mpr (many.trans (rowsAhead_flood count)) few
  have gone := (getLoginAttempt_step (wellBlocked_reachable (reached.step admitted)) found rfl failed other
    (by simp [LoginEvent.now])).2 crowded
  refine ⟨t, .cons admitted (.single failed), ?_⟩
  rw [rateLimited, List.any_cons, gone]
  rfl

/-- Five thousand failed attempts on ten thousand other keys unblock the key 0. -/
theorem loginBlock_flushed : ∃ (s t : LoginAttempts ℕ) (events : List (LoginEvent ℕ)) (row : AuthLoginAttemptRow ℕ),
    Reachable (loginMachine ℕ) s ∧ getLoginAttempt 0 s.rows = some row ∧ row.blockedUntil = some 900000 ∧
      Run (loginMachine ℕ) s events t ∧ (∀ event ∈ events, 0 ∉ event.attempt.rateKeys ∧ event.now < 900000) ∧
      rateLimited 1 [0] t.rows = false := by
  have flood := floodRows_run (Nat.le_refl 4999)
  obtain ⟨t, last, free⟩ := floodRows_overflow (Nat.le_refl 9998) (flood.reachable floodRows_reachable)
  refine ⟨_, t, _, _, floodRows_reachable, getLoginAttempt_floodRows_zero 0, rfl, flood.append last, ?_, free⟩
  intro event member
  rcases List.mem_append.mp member with early | late
  · exact floodEvents_others 4999 event early
  · rcases List.mem_cons.mp late with rfl | late
    · decide
    · rw [List.mem_singleton.mp late]
      decide

end Flood

end LatexRenderer
