import LatexRenderer.Oidc.LoginFlows

/-! # How often an address starts a login

The counts of an address live in a table of bounded size, so they hold as long as its entry is not the oldest one when
room is made, and no later clock ends its window.
-/

namespace LatexRenderer

open Machine

section Windows

variable {s t u : OidcState} {key : Text} {opened : Int} {base : Nat}

/-- The flows that a client address has started. -/
def OidcState.startsOf (s : OidcState) (key : Text) : Nat := s.starts.count key

/-- A `begin` call that drops the window: it reads a clock past its end, or it makes room for a new address where the
window is the oldest one. -/
inductive WindowLost (key : Text) (opened : Int) (s : OidcState) : OidcEvent → Prop
  | ended {pruned started : Int} {returnTo clientAddress : Text}
      (counts : (pruneFlows pruned s.flows).length < maximumPendingFlows)
      (late : opened + flowStartWindowMs ≤ started) :
      WindowLost key opened s (.begin pruned started returnTo clientAddress)
  | evicted {pruned started : Int} {returnTo clientAddress : Text}
      (counts : (pruneFlows pruned s.flows).length < maximumPendingFlows)
      (absent : mapGet? (rateKey clientAddress) (pruneWindows started s.flowStartWindows) = none)
      (full : maximumFlowStartRateKeys ≤ (pruneWindows started s.flowStartWindows).length)
      (oldest : (pruneWindows started s.flowStartWindows).head?.map Prod.fst = some key) :
      WindowLost key opened s (.begin pruned started returnTo clientAddress)

/-- A `begin` call that opens a window for its address. -/
structure OpensWindow (s : OidcState) (pruned started : Int) (clientAddress : Text) : Prop where
  counts : (pruneFlows pruned s.flows).length < maximumPendingFlows
  absent : mapGet? (rateKey clientAddress) (pruneWindows started s.flowStartWindows) = none

/-- The window is there and counts the flows that were started since it was opened. -/
def CountsFrom (key : Text) (opened : Int) (base : Nat) (s : OidcState) : Prop :=
  ∃ window, (key, window) ∈ s.flowStartWindows ∧ window.windowStartedAt = opened ∧ s.startsOf key = base + window.count

theorem countsFrom_open {pruned started : Int} {returnTo clientAddress : Text}
    (opens : OpensWindow s pruned started clientAddress) :
    CountsFrom (rateKey clientAddress) started (s.startsOf (rateKey clientAddress))
      (beginFlow pruned started returnTo clientAddress s) := by
  have room := Nat.not_le_of_lt opens.counts
  refine ⟨{ windowStartedAt := started, count := 1 }, ?_, rfl, ?_⟩
  · simp only [beginFlow, consumeFlowStart, opens.absent, if_neg room, if_true]
    exact mem_mapSet_self
  · simp only [beginFlow, consumeFlowStart, opens.absent, if_neg room, if_true, OidcState.startsOf, List.count_cons_self]

theorem consumeFlowStart_some {now : Int} {clientAddress : Text} {window : OidcFlowStartWindow}
    (found : mapGet? (rateKey clientAddress) (pruneWindows now s.flowStartWindows) = some window) :
    consumeFlowStart now clientAddress s =
      if maximumFlowStartsPerClient ≤ window.count then
        ({ s with flowStartWindows := pruneWindows now s.flowStartWindows }, false)
      else ({ s with
          flowStartWindows := mapSet (rateKey clientAddress) { window with count := window.count + 1 }
            (pruneWindows now s.flowStartWindows) }, true) := by
  simp only [consumeFlowStart, found]

theorem consumeFlowStart_none {now : Int} {clientAddress : Text}
    (absent : mapGet? (rateKey clientAddress) (pruneWindows now s.flowStartWindows) = none) :
    consumeFlowStart now clientAddress s =
      ({ s with
          flowStartWindows := mapSet (rateKey clientAddress) { windowStartedAt := now, count := 1 }
            (makeRoom (pruneWindows now s.flowStartWindows))
          activityDeadline := max s.activityDeadline (now + flowStartWindowMs) }, true) := by
  simp only [consumeFlowStart, absent]

theorem consumeFlowStart_counts (sound : LoginSound s) {started : Int} (clientAddress : Text)
    (early : started < opened + flowStartWindowMs)
    (kept : mapGet? (rateKey clientAddress) (pruneWindows started s.flowStartWindows) = none →
      maximumFlowStartRateKeys ≤ (pruneWindows started s.flowStartWindows).length →
      (pruneWindows started s.flowStartWindows).head?.map Prod.fst ≠ some key)
    {window : OidcFlowStartWindow} (member : (key, window) ∈ s.flowStartWindows) (begins : window.windowStartedAt = opened) :
    ∃ after, (key, after) ∈ (consumeFlowStart started clientAddress s).1.flowStartWindows ∧
      after.windowStartedAt = opened ∧ after.count = window.count +
        if (consumeFlowStart started clientAddress s).2 = true ∧ rateKey clientAddress = key then 1 else 0 := by
  have live : (key, window) ∈ pruneWindows started s.flowStartWindows :=
    List.mem_filter.mpr ⟨member, decide_eq_true (begins ▸ early)⟩
  have keys : ((pruneWindows started s.flowStartWindows).map Prod.fst).Nodup :=
    sound.windowKeys.sublist (List.filter_sublist.map _)
  cases found : mapGet? (rateKey clientAddress) (pruneWindows started s.flowStartWindows) with
  | some other =>
    rw [consumeFlowStart_some found]
    by_cases same : rateKey clientAddress = key
    · obtain rfl : other = window := value_unique keys (same ▸ mapGet?_mem found) live
      split
      · exact ⟨other, live, begins, by simp⟩
      · subst same
        exact ⟨_, mem_mapSet_self, begins, by simp⟩
    · split
      · exact ⟨window, live, begins, by simp⟩
      · exact ⟨window, mem_mapSet_of_ne live (Ne.symm same), begins, by simp [same]⟩
  | none =>
    rw [consumeFlowStart_none found]
    have other : rateKey clientAddress ≠ key := fun same =>
      mapGet?_none found (same ▸ List.mem_map_of_mem live)
    have stays : (key, window) ∈ makeRoom (pruneWindows started s.flowStartWindows) := by
      unfold makeRoom
      split
      · next full =>
        have notOldest := kept found full
        cases shape : pruneWindows started s.flowStartWindows with
        | nil =>
          rw [shape] at live
          cases live
        | cons first rest =>
          rw [shape] at live notOldest
          rcases List.mem_cons.mp live with rfl | later
          · exact absurd rfl notOldest
          · exact later
      · exact live
    exact ⟨window, mem_mapSet_of_ne stays (Ne.symm other), begins, by simp [other]⟩

/-- A step that does not drop the window counts the flow it may start. -/
theorem countsFrom_step {event : OidcEvent} (sound : LoginSound s) (stepped : oidcStep s event = some t)
    (keeps : ¬ WindowLost key opened s event) (counts : CountsFrom key opened base s) : CountsFrom key opened base t := by
  obtain ⟨window, member, begins, counted⟩ := counts
  cases event with
  | begin pruned started returnTo clientAddress =>
    cases stepped
    unfold beginFlow
    dsimp only
    split
    · exact ⟨window, member, begins, counted⟩
    · next room =>
      have free := Nat.lt_of_not_le room
      have early : started < opened + flowStartWindowMs := Int.lt_of_not_ge fun late => keeps (.ended free late)
      obtain ⟨after, there, opens, count⟩ := consumeFlowStart_counts
        (sound.prune pruned) clientAddress early (fun absent full oldest => keeps (.evicted free absent full oldest)) member begins
      have starts : (consumeFlowStart started clientAddress { s with flows := pruneFlows pruned s.flows }).1.starts =
          s.starts := by
        unfold consumeFlowStart
        dsimp only
        split
        · split <;> rfl
        · rfl
      split
      · next started =>
        refine ⟨after, there, opens, ?_⟩
        show (rateKey clientAddress :: (consumeFlowStart _ _ _).1.starts).count key = _
        rw [starts, List.count_cons, count]
        rw [OidcState.startsOf] at counted
        by_cases same : rateKey clientAddress = key
        · simp only [started, same, and_self, if_true, beq_self_eq_true]
          omega
        · simp only [same, and_false, if_false, beq_iff_eq]
          omega
      · next refused =>
        refine ⟨after, there, opens, ?_⟩
        rw [OidcState.startsOf, starts, count, if_neg fun both => refused both.1]
        exact counted
  | metadata returnTo pruned now secrets =>
    rw [oidcStep] at stepped
    split at stepped
    · cases stepped
      unfold storeFlow
      dsimp only
      split <;> exact ⟨window, member, begins, counted⟩
    · cases stepped
  | metadataFailed returnTo =>
    rw [oidcStep] at stepped
    split at stepped
    · cases stepped
      exact ⟨window, member, begins, counted⟩
    · cases stepped
  | callback now state stateCookie =>
    cases stepped
    unfold takeFlow
    dsimp only
    split
    · split
      · split <;> exact ⟨window, member, begins, counted⟩
      · exact ⟨window, member, begins, counted⟩
    · exact ⟨window, member, begins, counted⟩

/-- From the opening of its window on, an address starts at most twenty flows until the window is dropped. -/
theorem starts_le {pruned started : Int} {returnTo clientAddress : Text} {events : List OidcEvent}
    (reached : Reachable oidcMachine s) (opens : OpensWindow s pruned started clientAddress)
    (run : Run (oidcMachine.restrict fun a e => ¬ WindowLost (rateKey clientAddress) started a e)
      (beginFlow pruned started returnTo clientAddress s) events t) :
    t.startsOf (rateKey clientAddress) ≤ s.startsOf (rateKey clientAddress) + maximumFlowStartsPerClient := by
  have opened := beginFlow_sound (reachable_sound reached) pruned started returnTo clientAddress
  have both : LoginSound t ∧ CountsFrom (rateKey clientAddress) started (s.startsOf (rateKey clientAddress)) t := by
    refine run.preserves (P := fun a => LoginSound a ∧
      CountsFrom (rateKey clientAddress) started (s.startsOf (rateKey clientAddress)) a) ?_ ⟨opened, countsFrom_open opens⟩
    rintro a e b _ ⟨stepped, keeps⟩ ⟨sound, counts⟩
    exact ⟨oidcStep_sound stepped sound, countsFrom_step sound stepped keeps counts⟩
  obtain ⟨sound, window, member, _, counted⟩ := both
  have few := sound.counts _ member
  rw [counted]
  exact Nat.add_le_add_left few _

end Windows

section Claims

variable {s : OidcState}

/-- A state value is accepted once, live and with its cookie; few flows are stored; what is live keeps the client from
being idle; and an address starts at most twenty flows as long as its window is kept. -/
theorem oidc_login_flows (reached : Reachable oidcMachine s) :
    (s.accepted.map (·.state)).Nodup ∧
    (∀ callback ∈ s.accepted, callback.cookie = callback.state ∧
      ∃ expiresAt, (callback.state, expiresAt) ∈ s.issued ∧ callback.now < expiresAt) ∧
    s.flows.length ≤ maximumPendingFlows ∧
    (∀ now, (∀ entry ∈ s.flows, now < entry.2.expiresAt → entry.2.expiresAt ≤ s.idleBlockedUntil now) ∧
      ∀ entry ∈ s.flowStartWindows, now < entry.2.windowStartedAt + flowStartWindowMs →
        entry.2.windowStartedAt + flowStartWindowMs ≤ s.idleBlockedUntil now) ∧
    ∀ pruned started returnTo clientAddress events t, OpensWindow s pruned started clientAddress →
      Run (oidcMachine.restrict fun a e => ¬ WindowLost (rateKey clientAddress) started a e)
        (beginFlow pruned started returnTo clientAddress s) events t →
      t.startsOf (rateKey clientAddress) ≤ s.startsOf (rateKey clientAddress) + maximumFlowStartsPerClient := by
  have sound := reachable_sound reached
  refine ⟨sound.once, sound.live, sound.few, fun now => ⟨fun entry member live => ?_, fun entry member live => ?_⟩,
    fun pruned started returnTo clientAddress events t opens run => starts_le reached opens run⟩
  · have covered := sound.flowDeadlines entry member
    rwa [OidcState.idleBlockedUntil, if_pos (Int.lt_of_lt_of_le live covered)]
  · have covered := sound.windowDeadlines entry member
    rwa [OidcState.idleBlockedUntil, if_pos (Int.lt_of_lt_of_le live covered)]

/-- A login that is called back in time. -/
def calledBack : List OidcEvent :=
  [.begin 0 0 "/".toList "192.0.2.1".toList,
    .metadata "/".toList 1 1 { state := "state".toList, nonce := "nonce".toList, verifier := "verifier".toList },
    .callback 2 "state".toList "state".toList]

/-- The address that comes back. -/
def returningAddress : Text := "192.0.2.1".toList

/-- Another address of the crowd. -/
def crowdAddress (n : Nat) : Text := "2001:db8::".toList ++ Nat.toDigits 10 n

/-- A login begins where every clock reads zero. -/
def beginAtZero (clientAddress : Text) : OidcEvent := .begin 0 0 "/".toList clientAddress

/-- Logins at zero, one after the other. -/
def loginsAtZero (addresses : List Text) (s : OidcState) : OidcState :=
  addresses.foldl (fun s address => beginFlow 0 0 "/".toList address s) s

/-- A login of an address whose window is the only one does not drop it. -/
theorem not_windowLost_alone {window : OidcFlowStartWindow} (alone : s.flowStartWindows = [(returningAddress, window)]) :
    ¬ WindowLost returningAddress 0 s (beginAtZero returningAddress) := by
  intro lost
  cases lost with
  | ended counts late => exact absurd late (by decide)
  | evicted counts absent full oldest =>
    have few := List.length_filter_le (fun entry => decide (0 < entry.2.windowStartedAt + flowStartWindowMs)) s.flowStartWindows
    have one : s.flowStartWindows.length = 1 := by rw [alone]; rfl
    have many : maximumFlowStartRateKeys ≤ 1 := (full.trans few).trans one.le
    exact absurd many (by decide)

theorem flowStartWindows_alone {window : OidcFlowStartWindow} (alone : s.flowStartWindows = [(returningAddress, window)]) :
    ∃ after, (beginFlow 0 0 "/".toList returningAddress s).flowStartWindows = [(returningAddress, after)] := by
  have known : rateKey returningAddress = returningAddress := by decide
  unfold beginFlow
  dsimp only
  split
  · exact ⟨window, alone⟩
  have counted : ∃ after, (consumeFlowStart 0 returningAddress { s with flows := pruneFlows 0 s.flows }).1.flowStartWindows =
      [(returningAddress, after)] := by
    unfold consumeFlowStart
    dsimp only
    rw [alone, known, pruneWindows, List.filter_singleton]
    by_cases live : 0 < window.windowStartedAt + flowStartWindowMs
    · simp only [decide_eq_true live, cond_true, mapGet?, List.find?_cons, decide_true, Option.map_some]
      split
      · exact ⟨window, rfl⟩
      · exact ⟨_, rfl⟩
    · simp only [decide_eq_false live, cond_false]
      exact ⟨_, rfl⟩
  split
  · exact counted
  · exact counted

theorem run_returning (count : Nat) {window : OidcFlowStartWindow}
    (alone : s.flowStartWindows = [(returningAddress, window)]) :
    Run (oidcMachine.restrict fun a e => ¬ WindowLost returningAddress 0 a e) s
      ((List.replicate count returningAddress).map beginAtZero) (loginsAtZero (List.replicate count returningAddress) s) := by
  induction count generalizing s window with
  | zero => exact .nil s
  | succ count ih =>
    obtain ⟨after, alone'⟩ := flowStartWindows_alone alone
    exact .cons ⟨rfl, not_windowLost_alone alone⟩ (ih alone')

/-- One login is called back, and an address that begins 25 of them starts 20. -/
theorem oidc_login_flows_calledBack : (∃ s, Run oidcMachine OidcState.new calledBack s ∧
      s.accepted.map (·.state) = ["state".toList] ∧ (s.accepted.map (·.state)).Nodup) ∧
    (loginsAtZero (List.replicate 25 returningAddress) OidcState.new).startsOf returningAddress ≤ 20 ∧
    (loginsAtZero (List.replicate 20 returningAddress) OidcState.new).startsOf returningAddress = 20 := by
  constructor
  · have replayed : (replay? oidcStep OidcState.new calledBack).any
        (fun s => decide (s.accepted.map (·.state) = ["state".toList])) = true := by decide
    obtain ⟨s, run, accepted⟩ := exists_run_of_replay? replayed
    exact ⟨s, run, of_decide_eq_true accepted, (oidc_login_flows (run.reachable (.init rfl))).1⟩
  · have known : rateKey returningAddress = returningAddress := by decide
    have opens : OpensWindow OidcState.new 0 0 returningAddress := ⟨by decide, rfl⟩
    obtain ⟨-, -, -, -, started⟩ := oidc_login_flows (.init (m := oidcMachine) rfl)
    have few := started 0 0 "/".toList returningAddress _ _ opens (by
      rw [known]
      exact run_returning 24 rfl)
    rw [known] at few
    exact ⟨few, rfl⟩

/-- Twenty logins of one address, one of each of 10,000 others, and one more of the first. -/
def crowdedLogins : List OidcEvent :=
  (List.replicate 20 returningAddress ++ (List.range 10000).map crowdAddress ++ [returningAddress]).map beginAtZero

theorem crowdAddress_injective : Function.Injective crowdAddress := fun a b same => by
  have digits : Nat.toDigits 10 a = Nat.toDigits 10 b := List.append_cancel_left same
  rw [← Nat.ofDigitChars_ten_toDigits (n := a), digits, Nat.ofDigitChars_ten_toDigits]

theorem crowdAddress_cons (n : Nat) : crowdAddress n = '2' :: ("001:db8::".toList ++ Nat.toDigits 10 n) := rfl

theorem crowdAddress_ne (n : Nat) : crowdAddress n ≠ returningAddress := by
  rw [crowdAddress_cons, show returningAddress = '1' :: "92.0.2.1".toList from rfl]
  exact fun same => absurd (List.head_eq_of_cons_eq same) (by decide)

theorem trimSpace_of_isDigit {c : Char} (digit : c.isDigit = true) : trimSpace c = false := by
  simp only [Char.isDigit, Bool.and_eq_true, decide_eq_true_eq, ge_iff_le] at digit
  have lower : 48 ≤ c.toNat := UInt32.le_iff_toNat_le.mp digit.1
  have upper : c.toNat ≤ 57 := UInt32.le_iff_toNat_le.mp digit.2
  simp only [trimSpace, Bool.or_eq_false_iff, Bool.and_eq_false_iff, decide_eq_false_iff_not]
  omega

theorem trimText_eq_self {first last : Char} {middle : Text} (front : trimSpace first = false)
    (back : trimSpace last = false) : trimText (first :: (middle ++ [last])) = first :: (middle ++ [last]) := by
  have start : (first :: (middle ++ [last])).dropWhile trimSpace = first :: (middle ++ [last]) :=
    List.dropWhile_cons_of_neg (by simp [front])
  have reversed : (first :: (middle ++ [last])).reverse = last :: (first :: middle).reverse := by simp
  rw [trimText, start, reversed, List.dropWhile_cons_of_neg (by simp [back]), ← reversed, List.reverse_reverse]

theorem rateKey_crowdAddress (n : Nat) : rateKey (crowdAddress n) = crowdAddress n := by
  obtain ⟨start, last, shape⟩ := (List.eq_nil_or_concat (Nat.toDigits 10 n)).resolve_left Nat.toDigits_ne_nil
  have digit : last.isDigit = true := by
    apply Nat.isDigit_of_mem_toDigits (n := n) (by decide : 0 < 10) (by decide)
    rw [shape]
    simp
  have parts : crowdAddress n = '2' :: (("001:db8::".toList ++ start) ++ [last]) := by
    rw [crowdAddress_cons, shape, List.concat_eq_append, List.append_assoc]
  have trimmed : trimText (crowdAddress n) = crowdAddress n := by
    rw [parts]
    exact trimText_eq_self (by decide) (trimSpace_of_isDigit digit)
  rw [rateKey, trimmed, if_neg]
  rw [parts]
  exact List.cons_ne_nil _ _

/-- What the logins at zero leave: no flow, these windows, and so many starts of the address that comes back. -/
structure AtZero (windows : List (Text × OidcFlowStartWindow)) (starts : Nat) (s : OidcState) : Prop where
  current : ∀ entry ∈ windows, entry.2.windowStartedAt = 0
  noFlows : s.flows = []
  windows : s.flowStartWindows = windows
  starts : s.startsOf returningAddress = starts

theorem AtZero.newcomer {windows : List (Text × OidcFlowStartWindow)} {starts : Nat} (before : AtZero windows starts s)
    (address : Text) (absent : rateKey address ∉ windows.map Prod.fst) :
    AtZero (makeRoom windows ++ [(rateKey address, { windowStartedAt := 0, count := 1 })])
      (starts + if rateKey address = returningAddress then 1 else 0) (beginFlow 0 0 "/".toList address s) := by
  have live : pruneWindows 0 windows = windows := List.filter_eq_self.mpr fun entry member => by
    rw [before.current entry member]
    decide
  have unseen : mapGet? (rateKey address) (pruneWindows 0 s.flowStartWindows) = none := by
    rw [before.windows, live]
    cases found : mapGet? (rateKey address) windows with
    | none => exact rfl
    | some window => exact absurd (List.mem_map_of_mem (mapGet?_mem found)) absent
  have started : beginFlow 0 0 "/".toList address s = { s with
      flows := []
      flowStartWindows := mapSet (rateKey address) { windowStartedAt := 0, count := 1 } (makeRoom windows)
      activityDeadline := max s.activityDeadline (0 + flowStartWindowMs)
      waiting := "/".toList :: s.waiting
      starts := rateKey address :: s.starts } := by
    have pruned : pruneFlows 0 s.flows = [] := by
      rw [before.noFlows]
      rfl
    rw [before.windows, live] at unseen
    simp only [beginFlow, pruned, if_neg (show ¬ maximumPendingFlows ≤ ([] : List (Text × OidcFlow)).length by decide),
      consumeFlowStart, before.windows, live, unseen, if_true]
  have room := makeRoom_sublist windows
  have unknown : rateKey address ∉ (makeRoom windows).map Prod.fst := fun member =>
    absent ((room.map Prod.fst).subset member)
  rw [started]
  refine ⟨fun entry member => ?_, rfl, if_neg unknown, ?_⟩
  case refine_2 =>
    show (rateKey address :: s.starts).count returningAddress = _
    rw [List.count_cons, ← before.starts]
    simp [OidcState.startsOf]
  · rcases List.mem_append.mp member with old | new
    · exact before.current entry (room.subset old)
    · rw [List.mem_singleton.mp new]

theorem run_loginsAtZero (addresses : List Text) (s : OidcState) :
    Run oidcMachine s (addresses.map beginAtZero) (loginsAtZero addresses s) := by
  induction addresses generalizing s with
  | nil => exact .nil s
  | cons address rest ih => exact .cons rfl (ih _)

theorem loginsAtZero_append (first second : List Text) (s : OidcState) :
    loginsAtZero (first ++ second) s = loginsAtZero second (loginsAtZero first s) :=
  List.foldl_append

theorem AtZero.crowd {windows : List (Text × OidcFlowStartWindow)} {starts : Nat} {numbers : List Nat}
    (before : AtZero windows starts s) (nodup : numbers.Nodup)
    (absent : ∀ n ∈ numbers, crowdAddress n ∉ windows.map Prod.fst)
    (room : windows.length + numbers.length ≤ maximumFlowStartRateKeys) :
    AtZero (windows ++ numbers.map fun n => (crowdAddress n, { windowStartedAt := 0, count := 1 })) starts
      (loginsAtZero (numbers.map crowdAddress) s) := by
  induction numbers generalizing windows s with
  | nil =>
    rw [List.map_nil, List.append_nil]
    exact before
  | cons n rest ih =>
    rw [List.length_cons] at room
    have first := before.newcomer (crowdAddress n) (by
      rw [rateKey_crowdAddress]
      exact absent n List.mem_cons_self)
    rw [rateKey_crowdAddress, if_neg (crowdAddress_ne n), Nat.add_zero,
      show makeRoom windows = windows from if_neg (by omega)] at first
    have later := ih first (List.nodup_cons.mp nodup).2 (fun m member there => ?_) (by
      rw [List.length_append, List.length_singleton]
      omega)
    · rwa [List.append_assoc] at later
    · rw [List.map_append, List.mem_append] at there
      rcases there with old | new
      · exact absent m (List.mem_cons_of_mem _ member) old
      · obtain rfl : m = n := crowdAddress_injective (List.mem_singleton.mp new)
        exact (List.nodup_cons.mp nodup).1 member

theorem atZero_twenty : AtZero [(returningAddress, { windowStartedAt := 0, count := 20 })] 20
    (loginsAtZero (List.replicate 20 returningAddress) OidcState.new) :=
  ⟨by decide, rfl, rfl, rfl⟩

/-- The address that fills the table takes the place of the first one, which may start again. -/
theorem starts_of_crowd {numbers : List Nat} {n : Nat} (nodup : (numbers ++ [n]).Nodup)
    (full : numbers.length + 1 = maximumFlowStartRateKeys) :
    (loginsAtZero (List.replicate 20 returningAddress ++ (numbers ++ [n]).map crowdAddress ++ [returningAddress])
      OidcState.new).startsOf returningAddress = 21 := by
  have known : rateKey returningAddress = returningAddress := by decide
  obtain ⟨others, _, apart⟩ := List.nodup_append.mp nodup
  have lined := atZero_twenty.crowd others (fun m _ there => crowdAddress_ne m (List.mem_singleton.mp there))
    (by rw [List.length_singleton]; omega)
  have last := lined.newcomer (crowdAddress n) (by
    rw [rateKey_crowdAddress, List.map_append, List.mem_append, List.map_map]
    rintro (first | member)
    · exact crowdAddress_ne n (List.mem_singleton.mp first)
    · obtain ⟨m, there, same⟩ := List.mem_map.mp member
      exact apart m there n (List.mem_singleton_self n) (crowdAddress_injective same))
  rw [rateKey_crowdAddress, if_neg (crowdAddress_ne n),
    show makeRoom _ = List.tail _ from if_pos (by simp; omega)] at last
  have again := last.newcomer returningAddress (by
    rw [known]
    simp [crowdAddress_ne, (crowdAddress_ne n).symm])
  rw [known, if_pos rfl] at again
  rw [loginsAtZero_append, loginsAtZero_append, List.map_append, loginsAtZero_append]
  exact again.starts

/-- Twenty-one starts of one address at one time, all clocks reading zero. -/
theorem crowdedLogins_starts :
    (∀ event ∈ crowdedLogins, ∃ returnTo clientAddress, event = .begin 0 0 returnTo clientAddress) ∧
    ∃ s, Run oidcMachine OidcState.new crowdedLogins s ∧ s.startsOf returningAddress = 21 := by
  refine ⟨fun event member => ?_, _, run_loginsAtZero _ _, ?_⟩
  · obtain ⟨address, _, rfl⟩ := List.mem_map.mp member
    exact ⟨_, address, rfl⟩
  · have split : List.range 10000 = List.range 9999 ++ [9999] := List.range_succ
    rw [split]
    apply starts_of_crowd
    · rw [← split]
      exact List.nodup_range
    · rw [List.length_range, maximumFlowStartRateKeys]

end Claims

end LatexRenderer
