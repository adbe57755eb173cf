import LatexRenderer.OAuth.Sound

/-! # Token families

Authorization codes and refresh tokens are traded at most once, the pairs of a family are numbered without
gaps and at most one of its refresh tokens is current. Presenting a used refresh token outside the
overlap leaves the family dead: revoked when the token was in force, and expired or gone otherwise.
Within the overlap only the current successor is sent again, and a wrong binding changes nothing.
-/

namespace LatexRenderer

open Machine

/-- A refresh token that was neither used nor revoked. -/
def TokenRow.Current (row : TokenRow) : Prop :=
  row.tokenType = .refresh ∧ row.usedAt = none ∧ row.revokedAt = none

namespace OAuthSystem

variable {s t : OAuthSystem} {call : RefreshCall} {pair trade : Grant} {token : TokenRow}
  {family : TokenFamilyRow} {since instant : Timestamp}

/-- No request at this instant is granted with a secret of the pair. -/
def Refuses (s : OAuthSystem) (pair : Grant) (instant : Timestamp) : Prop :=
  (∀ resource, s.db.verifyAccessToken resource pair.accessToken instant = none) ∧
    ∀ call : RefreshCall, call.refreshToken = pair.refreshToken → call.timestamp = instant →
      ∃ outcome, (s.refresh call).2 = .invalid outcome

theorem Sound.carried (sound : s.Sound) {hash : String} (found : s.db.token hash = some (token, family))
    (member : pair ∈ s.granted) (mine : hash ∈ pair.secrets) : token.Carries pair ∧ family.id = pair.familyId := by
  obtain ⟨present, hash_eq, _, joined⟩ := GrantTables.token_eq_some found
  obtain ⟨grant, inHistory, carries⟩ := sound.tokens.carries token present
  have yours : hash ∈ grant.secrets := by
    rcases carries.2.2 with ⟨_, secret⟩ | ⟨_, secret⟩ <;> simp [Grant.secrets, ← hash_eq, secret]
  obtain rfl := sound.history.owner grant inHistory pair member hash yours mine
  exact ⟨carries, joined.trans carries.1⟩

theorem Sound.refuses (sound : s.Sound) (member : pair ∈ s.granted)
    (dead : DeadFrom s.db.families pair.familyId since) (le : since ≤ instant) : s.Refuses pair instant := by
  have inactive (hash : String) (mine : hash ∈ pair.secrets) {token : TokenRow} {family : TokenFamilyRow}
      (found : s.db.token hash = some (token, family)) : isActiveToken token family instant = false := by
    obtain ⟨_, _, inFamilies, _⟩ := GrantTables.token_eq_some found
    rcases dead family inFamilies (sound.carried found member mine).2 with revoked | expired
    · simp [isActiveToken, Option.isNone_eq_false_iff.mpr revoked]
    · have past : ¬ family.expiresAt > instant := Nat.not_lt.mpr (Nat.le_trans expired le)
      simp [isActiveToken, past]
  constructor
  · intro resource
    cases found : s.db.token pair.accessToken with
    | none => simp [GrantTables.verifyAccessToken, found]
    | some joined =>
      have dull := inactive pair.accessToken (by simp [Grant.secrets]) found
      simp [GrantTables.verifyAccessToken, found, Option.filter, dull]
  · intro call same at_eq
    have effect := refresh_effect s call
    generalize (s.refresh call).1 = t at effect
    generalize (s.refresh call).2 = result at effect ⊢
    have absent {token : TokenRow} {family : TokenFamilyRow} (presents : s.Presents call token family) :
        False := by
      have dull := inactive call.refreshToken (by simp [Grant.secrets, same]) presents.found
      rw [← at_eq, presents.active] at dull
      cases dull
    cases effect with
    | refused outcome => exact ⟨outcome, rfl⟩
    | revoked token family presents kept fewer outcome => exact ⟨outcome, rfl⟩
    | waits _ _ presents | replayed _ _ presents | rotated _ _ presents => exact (absent presents).elim

/-- The trade of a used token, and what the row of the token says of it. -/
theorem Sound.traded (sound : s.Sound) (presents : s.Presents call token family) (member : trade ∈ s.granted)
    (origin : trade.origin = .refresh call.refreshToken) :
    token.usedAt = some trade.timestamp ∧ token.familyId = trade.familyId ∧
      trade.sequence = token.sequence + 1 := by
  obtain ⟨present, hash, _, _⟩ := GrantTables.token_eq_some presents.found
  have used : token.usedAt = consumedAt s.granted trade.origin := by
    rw [sound.tokens.used token present presents.kind, hash, origin]
  rcases sound.history.follows trade member with ⟨⟨_, other⟩, _⟩ | ⟨previous, before, follows, same, number⟩
  · cases origin.symm.trans other
  · have secret : call.refreshToken = previous.refreshToken :=
      GrantOrigin.refresh.inj (origin.symm.trans follows)
    have carries := (sound.carried presents.found before (by simp [Grant.secrets, secret])).1
    rw [used, sound.history.consumedAt_of_mem member]
    exact ⟨rfl, carries.1.trans same.symm, by rw [number, carries.2.1]⟩

/-- A refresh token that is not in force belongs to a family that is revoked or expired. -/
theorem Sound.inactive (sound : s.Sound) (inTokens : token ∈ s.db.tokens) (inFamilies : family ∈ s.db.families)
    (joined : family.id = token.familyId) (kind : token.tokenType = .refresh)
    (notActive : ¬ isActiveToken token family instant = true) :
    family.revokedAt.isSome ∨ family.expiresAt ≤ instant := by
  by_cases revoked : family.revokedAt.isSome
  · exact .inl revoked
  · have unrevoked : token.revokedAt = none := by
      refine Option.eq_none_iff_forall_not_mem.mpr fun at_eq set => revoked ?_
      exact sound.tokens.revoked token inTokens (Option.isSome_of_mem set) family inFamilies joined
    have outlives := sound.tokens.outlives token inTokens kind family inFamilies joined
    refine .inr (Nat.not_lt.mp fun live => notActive ?_)
    have longer : token.expiresAt > instant := Nat.lt_of_lt_of_le live outlives
    simpa [isActiveToken, unrevoked, live, longer] using revoked

/-- Presenting a used token outside the overlap leaves its family dead: at once when the token was in force,
and otherwise it was dead already. -/
theorem Sound.reuse_dead (sound : s.Sound) (member : trade ∈ s.granted)
    (origin : trade.origin = .refresh call.refreshToken)
    (bound : call.clientId = trade.clientId ∧ call.resource = trade.resource)
    (outside : withinRefreshReplayGrace trade.timestamp call.timestamp = false)
    (past : call.timestamp ≤ s.clock) :
    (s.refresh call).1.drawn = s.drawn ∧
      DeadFrom (s.refresh call).1.db.families trade.familyId s.clock ∧
      ((∃ token family, s.Presents call token family) →
        DeadFrom (s.refresh call).1.db.families trade.familyId 0) := by
  have effect := refresh_effect s call
  generalize (s.refresh call).1 = t at effect
  generalize (s.refresh call).2 = result at effect
  have noOverlap {token : TokenRow} {family : TokenFamilyRow} (presents : s.Presents call token family)
      (overlap : ∀ usedAt, token.usedAt = some usedAt → withinRefreshReplayGrace usedAt call.timestamp) :
      False := by
    have within := overlap _ (sound.traded presents member origin).1
    rw [outside] at within
    cases within
  cases effect with
  | refused outcome absent =>
    refine ⟨rfl, ?_, fun ⟨token, family, presents⟩ => absurd presents (absent token family)⟩
    rcases sound.history.follows trade member with ⟨⟨_, other⟩, _⟩ | ⟨previous, before, follows, same, _⟩
    · cases origin.symm.trans other
    · have secret : call.refreshToken = previous.refreshToken :=
        GrantOrigin.refresh.inj (origin.symm.trans follows)
      rcases sound.missing previous before with ⟨row, present, kind, hash⟩ | dead
      · intro family inFamilies id_eq
        cases found : s.db.token call.refreshToken with
        | none =>
          obtain ⟨carrier, inHistory, carries⟩ := sound.tokens.carries row present
          have shared : carrier = previous := by
            rcases carries.2.2 with ⟨access, _⟩ | ⟨_, held⟩
            · cases kind.symm.trans access
            · exact sound.history.eq_of_refreshToken inHistory before (held.symm.trans hash)
          have apart := GrantTables.token_eq_none found present sound.tokens.distinct
            (hash.trans secret.symm) family inFamilies
          exact absurd (id_eq.trans (same.trans (shared ▸ carries.1.symm))) apart
        | some joined =>
          obtain ⟨token, owner⟩ := joined
          obtain ⟨inTokens, token_eq, inOwners, owner_eq⟩ := GrantTables.token_eq_some found
          obtain rfl : token = row := List.inj_on_of_nodup_map sound.tokens.distinct inTokens present
            (token_eq.trans (secret.trans hash.symm))
          have ofPrevious := (sound.carried found before (by simp [Grant.secrets, secret])).2
          obtain rfl : owner = family := List.inj_on_of_nodup_map sound.families.distinct inOwners inFamilies
            (ofPrevious.trans (same.symm.trans id_eq.symm))
          obtain ⟨client, resource⟩ := sound.families.bound owner inFamilies trade member id_eq.symm
          have notActive : ¬ isActiveToken token owner call.timestamp = true := fun active =>
            absent token owner ⟨found, kind, ⟨client.symm.trans bound.1.symm, resource.symm.trans bound.2.symm⟩,
              active⟩
          exact (sound.inactive present inFamilies owner_eq kind notActive).imp_right (Nat.le_trans · past)
      · exact same ▸ dead
  | revoked token family presents kept fewer outcome =>
    have mine := (sound.traded presents member origin).2.1
    rw [← mine]
    exact ⟨rfl, deadFrom_revoked _ _ _ _, fun _ => deadFrom_revoked _ _ _ _⟩
  | waits token family presents overlap => exact (noOverlap presents overlap).elim
  | replayed token family presents usedAt used overlap =>
    refine (noOverlap presents fun other same => ?_).elim
    rwa [← Option.some.inj (used.symm.trans same)]
  | rotated token family presents unused => exact (noOverlap presents (by simp [unused])).elim

/-- A dead family whose id was drawn stays dead. -/
theorem step_dead {action : OAuthAction} (stepped : action.step s = some t) {id : String}
    (known : id ∈ s.drawn ∧ DeadFrom s.db.families id since) :
    id ∈ t.drawn ∧ DeadFrom t.db.families id since := by
  obtain ⟨drawn, dead⟩ := known
  cases action with
  | advance | insertUser | cleanupCodes | cleanupTokens =>
    obtain ⟨_, eq⟩ := (Option.ite_none_right_eq_some ..).mp stepped
    rw [← Option.some.inj eq]
    exact ⟨drawn, dead⟩
  | updateUser id statement timestamp =>
    obtain ⟨users, _, rfl⟩ := Option.map_eq_some_iff.mp stepped
    exact ⟨drawn, dead⟩
  | beginAuthorize =>
    obtain ⟨user, _, eq⟩ := Option.bind_eq_some_iff.mp stepped
    rw [← Option.some.inj eq]
    exact ⟨drawn, dead⟩
  | insertCode =>
    obtain ⟨_, _, inserted⟩ := Option.bind_eq_some_iff.mp stepped
    obtain ⟨_, eq⟩ := (Option.ite_none_right_eq_some ..).mp inserted
    rw [← Option.some.inj eq]
    exact ⟨List.mem_cons_of_mem _ drawn, dead⟩
  | beginExchange =>
    obtain ⟨code, _, begun⟩ := Option.bind_eq_some_iff.mp stepped
    obtain ⟨_, eq⟩ := (Option.ite_none_right_eq_some ..).mp begun
    rw [← Option.some.inj eq]
    exact ⟨drawn, dead⟩
  | exchange callId codeHash familyId familyNow draw =>
    obtain ⟨⟨code, input, timestamp⟩, _, taken⟩ := Option.bind_eq_some_iff.mp stepped
    obtain ⟨⟨_, fresh, _⟩, traded⟩ := (Option.ite_none_right_eq_some ..).mp taken
    obtain ⟨db, exchanged, rfl⟩ := Option.map_eq_some_iff.mp traded
    obtain ⟨_, issued⟩ := (Option.ite_none_right_eq_some ..).mp exchanged
    obtain ⟨consumed, changed, rfl⟩ := Option.map_eq_some_iff.mp issued
    obtain ⟨codes, _, rfl⟩ := Option.map_eq_some_iff.mp changed
    have undrawn := (fresh_not_mem fresh).2 familyId (by simp)
    have other : familyId ≠ id := fun same => undrawn (same ▸ drawn)
    exact ⟨by simp [handOut, drawn], dead.insert other⟩
  | refresh call =>
    obtain ⟨_, eq⟩ := (Option.ite_none_right_eq_some ..).mp stepped
    rw [← Option.some.inj eq]
    have effect := refresh_effect s call
    generalize (s.refresh call).1 = next at effect
    generalize (s.refresh call).2 = result at effect
    cases effect with
    | refused | waits | replayed => exact ⟨drawn, dead⟩
    | revoked token family presents kept fewer outcome => exact ⟨drawn, dead.revoke _ _⟩
    | rotated token family presents unused consumed traded =>
      obtain ⟨tokens, _, rfl⟩ := Option.map_eq_some_iff.mp traded
      exact ⟨List.mem_cons_of_mem _ (List.mem_cons_of_mem _ drawn), dead⟩
  | cleanupFamilies script now =>
    obtain ⟨_, eq⟩ := (Option.ite_none_right_eq_some ..).mp stepped
    rw [← Option.some.inj eq]
    exact ⟨drawn, dead.subset fun _ => List.mem_of_mem_filter⟩
  | expireReplies | restart =>
    rw [← Option.some.inj stepped]
    exact ⟨drawn, dead⟩

/-- A dead family stays dead for the rest of the run. -/
theorem run_dead (reached : Reachable oauthMachine s) {actions : List OAuthAction}
    (run : Run oauthMachine s actions t) {id : String}
    (known : id ∈ s.drawn ∧ DeadFrom s.db.families id since) : DeadFrom t.db.families id since :=
  have kept : id ∈ t.drawn ∧ DeadFrom t.db.families id since :=
    run.stable reached (P := fun s => id ∈ s.drawn ∧ DeadFrom s.db.families id since)
      (fun _ stepped => step_dead stepped) known
  kept.2

/-- Two current refresh tokens of one family are one. -/
theorem Sound.current_unique (sound : s.Sound) {first second : TokenRow} (inFirst : first ∈ s.db.tokens)
    (inSecond : second ∈ s.db.tokens) (same : first.familyId = second.familyId) (current : first.Current)
    (also : second.Current) : first = second := by
  have last : ∀ row ∈ s.db.tokens, row.Current → ∃ grant ∈ s.granted, grant.familyId = row.familyId ∧
      grant.refreshToken = row.tokenHash ∧
      grant.sequence + 1 = s.granted.countP (·.familyId = row.familyId) := by
    intro row member current
    obtain ⟨grant, present, family, _, access | ⟨_, hash⟩⟩ := sound.tokens.carries row member
    · cases current.1.symm.trans access.1
    · have untraded : consumedAt s.granted (.refresh grant.refreshToken) = none := by
        rw [← hash, ← sound.tokens.used row member current.1, current.2.1]
      exact ⟨grant, present, family.symm, hash.symm, family ▸ sound.history.last present untraded⟩
  obtain ⟨pair, present, family, hash, number⟩ := last first inFirst current
  obtain ⟨other, there, family', hash', number'⟩ := last second inSecond also
  rw [same] at number
  obtain rfl : pair = other :=
    sound.history.gapless.unique present there (family.trans (same.trans family'.symm)) (by omega)
  exact List.inj_on_of_nodup_map sound.tokens.distinct inFirst inSecond (hash.symm.trans hash')

/-- A request with a used token gets at most the pair of the current refresh token of the family, within the
overlap, and changes nothing. -/
theorem Sound.replayed (sound : s.Sound) (member : trade ∈ s.granted)
    (origin : trade.origin = .refresh call.refreshToken) {response : OAuthTokenResponse}
    (sent : (s.refresh call).2.response? = some response) :
    withinRefreshReplayGrace trade.timestamp call.timestamp = true ∧ (s.refresh call).1 = s ∧
      ∃ successor ∈ s.db.tokens, successor.Current ∧ successor.tokenHash = response.refreshToken ∧
        successor.familyId = trade.familyId ∧ trade.sequence ≤ successor.sequence ∧
        ∃ pair ∈ s.granted, pair.familyId = trade.familyId ∧
          pair.accessToken = response.accessToken ∧ pair.refreshToken = response.refreshToken := by
  have effect := refresh_effect s call
  generalize (s.refresh call).1 = t at effect ⊢
  generalize (s.refresh call).2 = result at effect sent
  cases effect with
  | refused | revoked | waits => cases sent
  | rotated token family presents unused =>
    cases unused.symm.trans (sound.traded presents member origin).1
  | replayed token family presents usedAt used overlap reply kept expiresIn =>
    obtain ⟨at_eq, family_eq, _⟩ := sound.traded presents member origin
    obtain rfl := Option.some.inj (used.symm.trans at_eq)
    obtain ⟨stored, usable⟩ := Option.filter_eq_some_iff.mp kept
    simp only [Bool.and_eq_true, Option.any_eq_true] at usable
    obtain ⟨_, ⟨successor, owner⟩, found, fits⟩ := usable
    simp only [Bool.and_eq_true, decide_eq_true_eq, Option.isNone_iff_eq_none, isActiveToken] at fits
    obtain ⟨⟨succFamily, unused⟩, ⟨⟨unrevoked, _⟩, _⟩, _⟩ := fits
    obtain rfl := Option.some.inj sent
    obtain ⟨present, hash, _, _⟩ := GrantTables.token_eq_some found
    obtain ⟨pair, inHistory, pairFamily, access, refresh⟩ :=
      sound.replies call.process reply (List.mem_of_find?_eq_some stored)
    have ofReply : reply.familyId = token.familyId := by simpa using List.find?_some stored
    have carries := (sound.carried found inHistory (by simp [Grant.secrets, refresh])).1
    have kind : successor.tokenType = .refresh := by
      rcases carries.2.2 with ⟨_, held⟩ | ⟨kind, _⟩
      · exact absurd (held.symm.trans (hash.trans refresh.symm)) (sound.history.apart pair inHistory)
      · exact kind
    have untraded : consumedAt s.granted (.refresh pair.refreshToken) = none := by
      rw [refresh, ← hash, ← sound.tokens.used successor present kind, unused]
    have last := sound.history.last inHistory untraded
    have below : trade.sequence < s.granted.countP (·.familyId = pair.familyId) :=
      sound.history.gapless.mem_iff.mp ⟨trade, member,
        family_eq.symm.trans (ofReply.symm.trans pairFamily.symm), rfl⟩
    refine ⟨overlap, rfl, successor, present, ⟨kind, unused, unrevoked⟩, hash, succFamily.trans family_eq, ?_,
      pair, inHistory, pairFamily.trans (ofReply.trans family_eq), access, refresh⟩
    have number := carries.2.1
    omega

/-- A request whose token is bound to another client or resource, or is unknown, changes nothing. -/
theorem refresh_binding (wrong : ∀ token family, s.db.token call.refreshToken = some (token, family) →
    family.clientId ≠ call.clientId ∨ family.resource ≠ call.resource) :
    (s.refresh call).1 = s ∧ ∃ outcome, (s.refresh call).2 = .invalid outcome := by
  have absent {token : TokenRow} {family : TokenFamilyRow} (presents : s.Presents call token family) :
      False :=
    (wrong token family presents.found).elim (absurd presents.bound.1) (absurd presents.bound.2)
  have effect := refresh_effect s call
  generalize (s.refresh call).1 = t at effect ⊢
  generalize (s.refresh call).2 = result at effect ⊢
  cases effect with
  | refused outcome => exact ⟨rfl, outcome, rfl⟩
  | revoked _ _ presents | waits _ _ presents | replayed _ _ presents | rotated _ _ presents =>
    exact (absent presents).elim

/-- A request that is about to trade a code is bound to the client and the resource of the code. -/
theorem Sound.exchanging_bound (sound : s.Sound) {id : String} {code : AuthorizationCodeRow}
    {input : ExchangeInput} {timestamp : Timestamp} (about : s.exchanging? id = some (code, input, timestamp)) :
    code.clientId = input.clientId ∧ code.redirectUri = input.redirectUri ∧ code.resource = input.resource := by
  obtain ⟨call, member, matched⟩ := List.exists_of_findSome?_eq_some about
  have validated := sound.calls call member
  cases call with
  | authorizing => cases matched
  | exchanging other code input timestamp =>
    obtain ⟨_, eq⟩ := (Option.ite_none_right_eq_some ..).mp matched
    cases eq
    simp only [OAuthCall.Validated, validateCode, Bool.and_eq_true, decide_eq_true_eq] at validated
    obtain ⟨⟨⟨⟨_, client⟩, redirect⟩, resource⟩, _⟩ := validated
    exact ⟨client, redirect, resource⟩

end OAuthSystem

/-- The token families, in every reachable state. No code and no refresh token is traded twice; the pairs
of a family are numbered 0, 1, 2, …; a family has at most one current refresh token. Presenting a
used refresh token with its client and resource outside the overlap lets no later request be granted
with a secret of the family, now or ever, and not even an earlier one when the token was in force. Within
the overlap a request gets the current successor or nothing, and a wrong binding changes nothing. -/
theorem oauth_token_family {s : OAuthSystem} (reached : Reachable oauthMachine s) :
    (s.granted.map (·.origin)).Nodup ∧
    (∀ family, (s.granted.filter (·.familyId = family)).map (·.sequence) =
      List.range (s.granted.countP (·.familyId = family))) ∧
    (∀ first ∈ s.db.tokens, ∀ second ∈ s.db.tokens, first.familyId = second.familyId → first.Current →
      second.Current → first = second) ∧
    (∀ call t, oauthMachine.Step s (.refresh call) t → ∀ trade ∈ s.granted,
      trade.origin = .refresh call.refreshToken →
      call.clientId = trade.clientId ∧ call.resource = trade.resource →
      withinRefreshReplayGrace trade.timestamp call.timestamp = false →
      ∀ actions u, Run oauthMachine t actions u → ∀ pair ∈ u.granted, pair.familyId = trade.familyId →
        ∀ instant, s.clock ≤ instant ∨ (∃ token family, s.Presents call token family) →
          u.Refuses pair instant) ∧
    (∀ call, ∀ trade ∈ s.granted, trade.origin = .refresh call.refreshToken → ∀ response,
      (s.refresh call).2.response? = some response →
        withinRefreshReplayGrace trade.timestamp call.timestamp = true ∧ (s.refresh call).1 = s ∧
        ∃ successor ∈ s.db.tokens, successor.Current ∧ successor.tokenHash = response.refreshToken ∧
          successor.familyId = trade.familyId ∧ trade.sequence ≤ successor.sequence ∧
          ∃ pair ∈ s.granted, pair.familyId = trade.familyId ∧
            pair.accessToken = response.accessToken ∧ pair.refreshToken = response.refreshToken) ∧
    (∀ call, (∀ token family, s.db.token call.refreshToken = some (token, family) →
      family.clientId ≠ call.clientId ∨ family.resource ≠ call.resource) → (s.refresh call).1 = s) ∧
    (∀ id code input timestamp, s.exchanging? id = some (code, input, timestamp) →
      code.clientId = input.clientId ∧ code.redirectUri = input.redirectUri ∧
      code.resource = input.resource) := by
  have sound := oauth_sound reached
  refine ⟨sound.history.origins, sound.history.gapless, ?_, ?_, ?_, ?_, ?_⟩
  · intro first inFirst second inSecond same current also
    exact sound.current_unique inFirst inSecond same current also
  · intro call t stepped trade member origin bound outside actions u run pair inHistory same instant later
    obtain ⟨⟨past, _⟩, eq⟩ := (Option.ite_none_right_eq_some ..).mp stepped
    obtain ⟨kept, dead, atOnce⟩ := sound.reuse_dead member origin bound outside past
    have families : t.db.families = (s.refresh call).1.db.families := by rw [← Option.some.inj eq]
    have drawn : trade.familyId ∈ t.drawn := by
      rw [← Option.some.inj eq]
      exact kept ▸ sound.history.named trade member _ (by simp [Grant.names])
    rw [← families] at dead atOnce
    have after : Reachable oauthMachine t := reached.step stepped
    have soundLast := oauth_sound (run.reachable after)
    rcases later with le | inForce
    · exact soundLast.refuses inHistory (same ▸ OAuthSystem.run_dead after run ⟨drawn, dead⟩) le
    · exact soundLast.refuses inHistory (same ▸ OAuthSystem.run_dead after run ⟨drawn, atOnce inForce⟩)
        (Nat.zero_le instant)
  · intro call trade member origin response sent
    exact sound.replayed member origin sent
  · intro call wrong
    exact (OAuthSystem.refresh_binding wrong).1
  · intro id code input timestamp about
    exact sound.exchanging_bound about

def exampleRequest : AuthorizationRequest where
  clientId := "mcp_client_1"
  redirectUri := "https://client.example/callback"
  scopes := ["mcp"]
  resource := "https://mcp.example"
  codeChallenge := "challenge"

def exampleDraw (accessToken refreshToken : String) (now : Timestamp) : TokenDraw where
  accessToken := accessToken
  refreshToken := refreshToken
  accessNow := now
  refreshNow := now

/-- A refresh with the first token of the example family. -/
def exampleRefresh (accessToken refreshToken : String) (now : Timestamp) : RefreshCall where
  process := "mcp_1"
  refreshToken := "refresh_0"
  clientId := "mcp_client_1"
  resource := "https://mcp.example"
  timestamp := now
  now := now
  draw := exampleDraw accessToken refreshToken now
  replyNow := now

/-- A code is issued and exchanged, and the first refresh token rotated. -/
def exampleGrants : List OAuthAction :=
  [.beginAuthorize "call_1" "user_1" exampleRequest, .insertCode "call_1" "code_1" 0 0,
    .beginExchange "call_2" ⟨"code_1", "mcp_client_1", "https://client.example/callback", "challenge",
      "https://mcp.example"⟩ 0,
    .exchange "call_2" "code_1" "oauth_family_1" 0 (exampleDraw "access_0" "refresh_0" 0),
    .advance 1000, .refresh (exampleRefresh "access_1" "refresh_1" 1000), .advance 60000]

/-- The first refresh token comes back a minute after its rotation: from then on the second pair is
refused at every instant. -/
theorem oauth_token_family_reused :
    ∃ s t : OAuthSystem, oauthMachine.Step s (.refresh (exampleRefresh "access_2" "refresh_2" 60000)) t ∧
      ∃ pair ∈ t.granted, pair.refreshToken = "refresh_1" ∧ ∀ instant, t.Refuses pair instant := by
  let call := exampleRefresh "access_2" "refresh_2" 60000
  let trade : Grant := ⟨.refresh "refresh_0", "oauth_family_1", "mcp_client_1", "https://mcp.example", 1, 1000,
    "access_1", "refresh_1"⟩
  have replayed : (replay? OAuthAction.step { db := { users := [{ id := "user_1", updatedAt := 0 }] } }
      exampleGrants).any (fun s => s.granted.contains trade &&
        ((OAuthAction.refresh call).step s).any (·.granted.contains trade) &&
        (s.db.token call.refreshToken).any fun joined => joined.1.tokenType = .refresh &&
          joined.2.clientId = call.clientId && joined.2.resource = call.resource &&
          isActiveToken joined.1 joined.2 call.timestamp) = true := by decide
  obtain ⟨s, run, check⟩ : ∃ s, Run oauthMachine { db := { users := [{ id := "user_1", updatedAt := 0 }] } }
    exampleGrants s ∧ _ := exists_run_of_replay? replayed
  simp only [Bool.and_eq_true, Option.any_eq_true, List.contains_iff_mem, decide_eq_true_eq] at check
  obtain ⟨⟨member, t, stepped, later⟩, ⟨token, family⟩, found, ⟨⟨kind, client⟩, resource⟩, active⟩ := check
  have reached : Reachable oauthMachine s := ⟨_, _, ⟨0, _, rfl⟩, run⟩
  have families := (oauth_token_family reached).2.2.2.1
  exact ⟨s, t, stepped, trade, later, rfl, fun instant =>
    families call t stepped trade member rfl ⟨rfl, rfl⟩ (by decide) [] t (.nil t) trade later rfl instant
      (.inr ⟨token, family, found, kind, ⟨client, resource⟩, active⟩)⟩

end LatexRenderer
