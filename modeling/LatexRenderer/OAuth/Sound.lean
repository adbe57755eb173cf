import LatexRenderer.OAuth.Tokens

/-! # What a refresh does, and the invariant of the OAuth service

`RefreshEffect` says once what `refresh` can do, with the checks that led there. Each action keeps the
invariant: the statements of the tables by their own lemmas, the exchange of a code and the rotation of a
refresh token by adding one pair to the history together with its rows.
-/

namespace LatexRenderer

open Machine

theorem GrantTables.token_eq_some {db : GrantTables} {hash : String} {row : TokenRow}
    {family : TokenFamilyRow} (found : db.token hash = some (row, family)) :
    row ∈ db.tokens ∧ row.tokenHash = hash ∧ family ∈ db.families ∧ family.id = row.familyId := by
  simp only [GrantTables.token, GrantTables.family?, Option.bind_eq_bind, Option.bind_eq_some_iff,
    Option.pure_def, Option.some.injEq, Prod.mk.injEq] at found
  obtain ⟨token, first, joined, second, rfl, rfl⟩ := found
  exact ⟨List.mem_of_find?_eq_some first, by simpa using List.find?_some first,
    List.mem_of_find?_eq_some second, by simpa using List.find?_some second⟩

/-- Without a row for the token or its family, `token` finds nothing. -/
theorem GrantTables.token_eq_none {db : GrantTables} {hash : String} (missing : db.token hash = none)
    {row : TokenRow} (member : row ∈ db.tokens) (distinct : (db.tokens.map (·.tokenHash)).Nodup)
    (same : row.tokenHash = hash) : ∀ family ∈ db.families, family.id ≠ row.familyId := by
  cases found : db.tokens.find? (·.tokenHash == hash) with
  | none => exact absurd same (by simpa using List.find?_eq_none.mp found row member)
  | some other =>
    have hash_eq : other.tokenHash = hash := by simpa using List.find?_some found
    obtain rfl : other = row :=
      List.inj_on_of_nodup_map distinct (List.mem_of_find?_eq_some found) member (hash_eq.trans same.symm)
    simp only [GrantTables.token, GrantTables.family?, found, Option.bind_eq_bind, Option.bind_some,
      Option.pure_def, Option.bind_eq_none_iff, reduceCtorEq, imp_false] at missing
    intro family present
    have nothing := List.find?_eq_none.mp (Option.eq_none_iff_forall_not_mem.mpr missing) family present
    simpa using nothing

namespace OAuthSystem

variable {s : OAuthSystem} {call : RefreshCall} {token : TokenRow} {family : TokenFamilyRow}

/-- The token of a request is a refresh token, in force at its timestamp and of the client and the
resource that the request names. -/
structure Presents (s : OAuthSystem) (call : RefreshCall) (token : TokenRow) (family : TokenFamilyRow) :
    Prop where
  found : s.db.token call.refreshToken = some (token, family)
  kind : token.tokenType = .refresh
  bound : family.clientId = call.clientId ∧ family.resource = call.resource
  active : isActiveToken token family call.timestamp = true

/-- What `refresh` does, by its branches. -/
inductive RefreshEffect (s : OAuthSystem) (call : RefreshCall) : OAuthSystem → RefreshResult → Prop
  | refused (outcome : InvalidGrant) (absent : ∀ token family, ¬ s.Presents call token family) :
    RefreshEffect s call s (.invalid outcome)
  | revoked (token : TokenRow) (family : TokenFamilyRow) (presents : s.Presents call token family)
      (kept : String → List RefreshReply) (fewer : ∀ process, ∀ reply ∈ kept process,
        reply ∈ s.replies process) (outcome : InvalidGrant) :
    RefreshEffect s call
      { s with db := s.db.revokeFamily token.familyId call.timestamp, replies := kept } (.invalid outcome)
  | waits (token : TokenRow) (family : TokenFamilyRow) (presents : s.Presents call token family)
      (overlap : ∀ usedAt, token.usedAt = some usedAt → withinRefreshReplayGrace usedAt call.timestamp)
      (message : String) : RefreshEffect s call s (.retry message)
  | replayed (token : TokenRow) (family : TokenFamilyRow) (presents : s.Presents call token family)
      (usedAt : Timestamp) (used : token.usedAt = some usedAt)
      (overlap : withinRefreshReplayGrace usedAt call.timestamp) (reply : RefreshReply)
      (kept : s.replayable? call token.familyId = some reply) (expiresIn : Nat) :
    RefreshEffect s call s (.replayed { reply.response with expiresIn := expiresIn })
  | rotated (token : TokenRow) (family : TokenFamilyRow) (presents : s.Presents call token family)
      (unused : token.usedAt = none) (consumed : GrantTables)
      (traded : s.db.consumeRefresh call.refreshToken call.timestamp = some consumed) :
    RefreshEffect s call
      ((s.handOut (rotation call token family) (consumed.issueTokens token.familyId (token.sequence + 1)
        call.timestamp call.draw)).setReply call.process (rotationReply call token family))
      (.issued (call.draw.response family.scopes))

theorem mem_deleteReply {process familyId other : String} {reply : RefreshReply}
    (member : reply ∈ (s.deleteReply process familyId).replies other) : reply ∈ s.replies other := by
  by_cases same : other = process
  · subst same
    simp only [deleteReply, withReplies, Function.update_self] at member
    exact List.mem_of_mem_filter member
  · simpa [deleteReply, withReplies, Function.update_of_ne same] using member

theorem mem_setReply {process other : String} {reply new : RefreshReply}
    (member : reply ∈ (s.setReply process new).replies other) : reply ∈ s.replies other ∨ reply = new := by
  by_cases same : other = process
  · subst same
    simp only [setReply, withReplies, Function.update_self] at member
    rcases List.mem_append.mp member with before | added
    · exact .inl (List.mem_of_mem_filter (List.mem_of_mem_drop before))
    · exact .inr (List.mem_singleton.mp added)
  · simp only [setReply, withReplies, Function.update_of_ne same] at member
    exact .inl member

theorem rotate_effect (presents : s.Presents call token family) (unused : token.usedAt = none) :
    RefreshEffect s call (s.rotate call token family).1 (s.rotate call token family).2 := by
  unfold rotate
  cases traded : s.db.consumeRefresh call.refreshToken call.timestamp with
  | none => exact .waits token family presents (by simp [unused]) _
  | some consumed => exact .rotated token family presents unused consumed traded

theorem reuse_effect (presents : s.Presents call token family) {usedAt : Timestamp}
    (used : token.usedAt = some usedAt) :
    RefreshEffect s call (s.reuse call token usedAt).1 (s.reuse call token usedAt).2 := by
  unfold reuse
  by_cases overlap : withinRefreshReplayGrace usedAt call.timestamp = true
  · rw [if_pos overlap]
    cases kept : s.replayable? call token.familyId with
    | some reply => exact .replayed token family presents usedAt used overlap reply kept _
    | none =>
      refine .waits token family presents (fun other same => ?_) _
      obtain rfl := Option.some.inj (used.symm.trans same)
      exact overlap
  · rw [if_neg overlap]
    exact .revoked token family presents _ (fun _ _ => mem_deleteReply) .reuseRevoked

/-- Each branch of `refresh` is one of the effects. -/
theorem refresh_effect (s : OAuthSystem) (call : RefreshCall) :
    RefreshEffect s call (s.refresh call).1 (s.refresh call).2 := by
  unfold refresh
  cases found : s.db.token call.refreshToken with
  | none => exact .refused .invalid fun token family presents => by cases found.symm.trans presents.found
  | some joined =>
    obtain ⟨token, family⟩ := joined
    have only {P : TokenRow → TokenFamilyRow → Prop} {other : TokenRow} {joined : TokenFamilyRow}
        (presents : s.Presents call other joined) (holds : P other joined) : P token family := by
      cases found.symm.trans presents.found
      exact holds
    dsimp only
    split_ifs with kind binding inactive changed
    · exact .refused .invalid fun other joined presents => kind
        (only (P := fun token _ => token.tokenType = .refresh) presents presents.kind)
    · refine .refused .binding fun other joined presents => ?_
      have bound := only (P := fun _ family => family.clientId = call.clientId ∧
        family.resource = call.resource) presents presents.bound
      exact binding.elim (absurd bound.1) (absurd bound.2)
    · refine .refused .expired fun other joined presents => ?_
      have active := only (P := fun token family => isActiveToken token family call.timestamp = true)
        presents presents.active
      simp [active] at inactive
    all_goals
      have presents : s.Presents call token family :=
        ⟨found, by simpa using kind, by simpa using binding, by simpa using inactive⟩
    · exact .revoked token family presents _ (fun _ _ => id) .subjectChanged
    · cases used : token.usedAt with
      | some usedAt => exact reuse_effect presents used
      | none => exact rotate_effect presents used

/-- What the random source has not returned yet is no secret of the history. -/
theorem fresh_not_mem {values : List String} (fresh : s.fresh values) :
    values.Nodup ∧ ∀ value ∈ values, value ∉ s.drawn := by
  obtain ⟨distinct, _, apart⟩ := List.nodup_append.mp fresh
  exact ⟨distinct, fun value mine drawn => apart value mine value drawn rfl⟩

/-- A pair handed out with its two rows keeps the invariant, when the tables already carry the mark of its
trade and the row of its family. -/
theorem Sound.handOut (sound : s.Sound) {grant : Grant} {draw : TokenDraw} {drawn : List String}
    {db : GrantTables} (clock : Timestamp) (since : clock ≤ draw.refreshNow) (grows : s.drawn ⊆ drawn) (family : grant.familyId ∈ drawn) (origin : grant.origin.hash ∈ s.drawn)
    (issued : grant.accessToken = draw.accessToken ∧ grant.refreshToken = draw.refreshToken)
    (fresh : draw.accessToken ∉ s.drawn ∧ draw.refreshToken ∉ s.drawn ∧
      draw.accessToken ≠ draw.refreshToken)
    (untraded : consumedAt s.granted grant.origin = none) (follows : grant.Follows s.granted)
    (start : grant.sequence = 0 → s.granted.countP (·.familyId = grant.familyId) = 0)
    (codes : CodesSound drawn (s.granted ++ [grant]) db.codes)
    (families : FamiliesSound clock drawn (s.granted ++ [grant]) db.families)
    (tokens : TokensSound (s.granted ++ [grant]) db.families db.tokens)
    (hashes : ∀ row ∈ db.tokens, row.tokenHash ∈ s.drawn)
    (missing : MissingDead clock (s.granted ++ [grant]) db.families
      (db.issueTokens grant.familyId grant.sequence grant.timestamp draw).tokens) :
    ({ s with clock := draw.refreshNow, drawn := drawn }.handOut grant
      (db.issueTokens grant.familyId grant.sequence grant.timestamp draw)).Sound := by
  obtain ⟨access_eq, refresh_eq⟩ := issued
  obtain ⟨access, refresh, apart⟩ := fresh
  have wider : drawn ⊆ grant.accessToken :: grant.refreshToken :: drawn :=
    fun value member => List.mem_cons_of_mem _ (List.mem_cons_of_mem _ member)
  have history : GrantHistory (grant.accessToken :: grant.refreshToken :: drawn) (s.granted ++ [grant]) := by
    refine sound.history.append (List.Subset.trans grows wider) ?_ ?_ ?_ untraded follows start
    · simp only [Grant.names, List.mem_cons, List.not_mem_nil, or_false]
      rintro name (rfl | rfl | rfl | rfl)
      · exact .inr (.inr family)
      · exact .inl rfl
      · exact .inr (.inl rfl)
      · exact .inr (.inr (grows origin))
    · simp only [Grant.secrets, List.mem_cons, List.not_mem_nil, or_false, access_eq, refresh_eq]
      rintro secret (rfl | rfl)
      · exact access
      · exact refresh
    · rwa [access_eq, refresh_eq]
  have unused : consumedAt (s.granted ++ [grant]) (.refresh draw.refreshToken) = none := by
    rw [consumedAt_append_of_ne]
    · have old : consumedAt s.granted (.refresh draw.refreshToken) = none :=
        sound.history.consumedAt_of_fresh refresh
      exact old
    · intro same
      rw [same] at origin
      exact refresh origin
  constructor
  case history => exact history
  case codes =>
    exact ⟨codes.distinct, fun code member => wider (codes.named code member), codes.used⟩
  case families => exact families.mono since wider
  case tokens =>
    refine tokens.issue (by simp) ⟨rfl, rfl, access_eq, refresh_eq⟩ apart ?_ unused ?_
    · intro row member
      have drawn := hashes row member
      exact ⟨fun same => access (same ▸ drawn), fun same => refresh (same ▸ drawn)⟩
    · intro family member
      exact Nat.le_trans (families.lifetime family member) (Nat.add_le_add_right since _)
  case missing => exact missing.mono since
  case replies =>
    intro process reply member
    obtain ⟨sent, present, rest⟩ := sound.replies process reply member
    exact ⟨sent, List.mem_append_left _ present, rest⟩
  case calls => exact sound.calls

theorem Sound.rotate (sound : s.Sound) (presents : s.Presents call token family)
    {consumed : GrantTables}
    (traded : s.db.consumeRefresh call.refreshToken call.timestamp = some consumed)
    (timed : s.clock ≤ call.now ∧ call.draw.Timed call.now)
    (fresh : s.fresh [call.draw.accessToken, call.draw.refreshToken]) :
    ({ s with clock := call.draw.refreshNow }.handOut (rotation call token family)
      (consumed.issueTokens token.familyId (token.sequence + 1) call.timestamp call.draw)).Sound := by
  obtain ⟨began, first, second⟩ := timed
  obtain ⟨distinct, undrawn⟩ := fresh_not_mem fresh
  obtain ⟨inTokens, hash, inFamilies, joined⟩ := GrantTables.token_eq_some presents.found
  obtain ⟨previous, before, family_eq, number_eq, kind | ⟨_, secret⟩⟩ := sound.tokens.carries token inTokens
  · cases presents.kind.symm.trans kind.1
  have follows : (rotation call token family).Follows s.granted :=
    .inr ⟨previous, before, congrArg _ (hash.symm.trans secret), family_eq, congrArg (· + 1) number_eq⟩
  obtain ⟨tokens, updated, rfl⟩ := Option.map_eq_some_iff.mp traded
  obtain ⟨untraded, kept, rows, old⟩ :=
    sound.tokens.consume (rotation call token family) updated rfl
  have hashes : ∀ row ∈ tokens, row.tokenHash ∈ s.drawn := by
    intro row member
    obtain ⟨earlier, present, same⟩ := old row member
    exact same ▸ (sound.tokens.named sound.history present).1
  have le : s.clock ≤ call.draw.refreshNow := Nat.le_trans began (Nat.le_trans first second)
  refine sound.handOut s.clock le (List.Subset.refl _) ?_ ?_ ⟨rfl, rfl⟩
    ⟨undrawn _ (by simp), undrawn _ (by simp), by simpa using distinct⟩ untraded follows nofun ?_ ?_ kept
    hashes ?_
  · exact (sound.tokens.named sound.history inTokens).2
  · show call.refreshToken ∈ s.drawn
    exact hash ▸ (sound.tokens.named sound.history inTokens).1
  · exact sound.codes.rotate (List.Subset.refl _) rfl
  · exact sound.families.rotate inFamilies joined.symm ⟨rfl, rfl⟩
  · refine sound.missing.issue ?_ ?_
    · intro row member
      obtain ⟨other, present, same⟩ := rows row member
      exact ⟨other, List.mem_append_left _ present, same⟩
    · exact ⟨call.draw.refreshRow token.familyId (token.sequence + 1) call.timestamp, by
        simp [GrantTables.issueTokens, rotation], rfl, rfl⟩

theorem Sound.exchange (sound : s.Sound) {code : AuthorizationCodeRow} {timestamp familyNow : Timestamp}
    {familyId : String} {draw : TokenDraw} {db : GrantTables}
    (exchanged : s.db.exchange code timestamp familyNow familyId draw = some db)
    (timed : s.clock ≤ familyNow ∧ draw.Timed familyNow)
    (fresh : s.fresh [familyId, draw.accessToken, draw.refreshToken]) :
    ({ s with clock := draw.refreshNow, drawn := familyId :: s.drawn }.handOut
      (code.grant familyId timestamp draw) db).Sound := by
  obtain ⟨began, first, second⟩ := timed
  obtain ⟨distinct, undrawn⟩ := fresh_not_mem fresh
  have newFamily : familyId ∉ s.drawn := undrawn _ (by simp)
  obtain ⟨_, traded⟩ := (Option.ite_none_right_eq_some ..).mp exchanged
  obtain ⟨consumed, changed, rfl⟩ := Option.map_eq_some_iff.mp traded
  obtain ⟨codes, updated, rfl⟩ := Option.map_eq_some_iff.mp changed
  have grows : s.drawn ⊆ familyId :: s.drawn := List.subset_cons_self ..
  obtain ⟨untraded, drawnCode, kept⟩ :=
    sound.codes.consume (code.grant familyId timestamp draw) grows updated rfl
  have later := sound.families.mono began (List.Subset.refl _)
  have noPair : ∀ grant ∈ s.granted, grant.familyId ≠ familyId := by
    intro grant member same
    exact newFamily (same ▸ sound.history.named grant member _ (by simp [Grant.names]))
  have inserted : FamiliesSound familyNow (familyId :: s.drawn)
      (s.granted ++ [code.grant familyId timestamp draw])
      (s.db.families ++ [code.family familyId timestamp familyNow]) :=
    later.insert sound.history (code.family familyId timestamp familyNow) newFamily (Nat.le_refl _) rfl ⟨rfl, rfl⟩
  refine sound.handOut familyNow (Nat.le_trans first second) grows List.mem_cons_self
    drawnCode ⟨rfl, rfl⟩ ⟨undrawn _ (by simp), undrawn _ (by simp), ?_⟩ untraded
    (.inl ⟨⟨_, rfl⟩, rfl⟩) (fun _ => ?_) kept ?_ ?_ ?_ ?_
  · simp only [List.nodup_cons] at distinct
    simpa using distinct.2.1
  · exact List.countP_eq_zero.mpr fun grant member same =>
      noPair grant member (of_decide_eq_true same)
  · exact inserted
  · exact (sound.tokens.insertFamily sound.history newFamily).trade rfl
  · intro row member
    exact (sound.tokens.named sound.history member).1
  · have missing : MissingDead familyNow s.granted
        (s.db.families ++ [code.family familyId timestamp familyNow]) s.db.tokens := by
      intro grant member
      exact (sound.missing grant member).imp_right fun dead =>
        (dead.later began).insert (noPair grant member).symm
    refine missing.issue ?_ ?_
    · intro row member
      exact ⟨row, List.mem_append_left _ member, rfl, rfl⟩
    · exact ⟨draw.refreshRow familyId 0 timestamp, by
        simp [GrantTables.issueTokens, AuthorizationCodeRow.grant], rfl, rfl⟩

theorem Sound.refresh (sound : s.Sound) (timed : s.clock ≤ call.now ∧ call.draw.Timed call.now)
    (fresh : s.fresh [call.draw.accessToken, call.draw.refreshToken]) :
    ({ (s.refresh call).1 with clock := call.draw.refreshNow } : OAuthSystem).Sound := by
  have le : s.clock ≤ call.draw.refreshNow := Nat.le_trans timed.1 (Nat.le_trans timed.2.1 timed.2.2)
  have effect := refresh_effect s call
  generalize (s.refresh call).1 = t at effect
  generalize (s.refresh call).2 = result at effect
  cases effect with
  | refused | waits | replayed =>
    exact { sound with
      families := sound.families.mono le (List.Subset.refl _)
      missing := sound.missing.mono le }
  | revoked token family presents kept fewer outcome =>
    exact { sound with
      families := (sound.families.revoke token.familyId call.timestamp).mono le (List.Subset.refl _)
      tokens := sound.tokens.revoke token.familyId call.timestamp
      missing := (sound.missing.revoke token.familyId call.timestamp).mono le
      replies := fun process reply member => sound.replies process reply (fewer process reply member) }
  | rotated token family presents unused consumed traded =>
    have handed := sound.rotate presents traded timed fresh
    refine { handed with replies := fun process reply member => ?_ }
    rcases mem_setReply member with before | rfl
    · exact handed.replies process reply before
    · exact ⟨rotation call token family, List.mem_append_right _ List.mem_cons_self, rfl, rfl, rfl⟩

end OAuthSystem

theorem OAuthAction.step_sound {s t : OAuthSystem} {action : OAuthAction} (stepped : action.step s = some t)
    (sound : s.Sound) : t.Sound := by
  cases action with
  | advance clock =>
    obtain ⟨le, eq⟩ := (Option.ite_none_right_eq_some ..).mp stepped
    rw [← Option.some.inj eq]
    exact { sound with
      families := sound.families.mono le (List.Subset.refl _)
      missing := sound.missing.mono le }
  | insertUser user =>
    obtain ⟨_, eq⟩ := (Option.ite_none_right_eq_some ..).mp stepped
    rw [← Option.some.inj eq]
    exact { sound with }
  | updateUser id statement timestamp =>
    obtain ⟨users, _, rfl⟩ := Option.map_eq_some_iff.mp stepped
    exact { sound with }
  | beginAuthorize id userId request =>
    obtain ⟨user, _, eq⟩ := Option.bind_eq_some_iff.mp stepped
    rw [← Option.some.inj eq]
    exact { sound with
      calls := by
        rintro call (_ | ⟨_, member⟩)
        · trivial
        · exact sound.calls call member }
  | insertCode id codeHash timestamp expiryNow =>
    obtain ⟨⟨user, request⟩, _, inserted⟩ := Option.bind_eq_some_iff.mp stepped
    obtain ⟨⟨fresh, _⟩, eq⟩ := (Option.ite_none_right_eq_some ..).mp inserted
    have undrawn := (OAuthSystem.fresh_not_mem fresh).2 codeHash (by simp)
    have grows : s.drawn ⊆ codeHash :: s.drawn := List.subset_cons_self ..
    rw [← Option.some.inj eq]
    exact { sound with
      history := sound.history.mono grows
      codes := sound.codes.insert sound.history (request.code codeHash user timestamp expiryNow) undrawn rfl
      families := sound.families.mono (Nat.le_refl _) grows }
  | beginExchange id input timestamp =>
    obtain ⟨code, found, begun⟩ := Option.bind_eq_some_iff.mp stepped
    obtain ⟨_, eq⟩ := (Option.ite_none_right_eq_some ..).mp begun
    rw [← Option.some.inj eq]
    exact { sound with
      calls := by
        rintro call (_ | ⟨_, member⟩)
        · exact (Option.filter_eq_some_iff.mp found).2
        · exact sound.calls call member }
  | exchange id codeHash familyId familyNow draw =>
    obtain ⟨⟨code, input, timestamp⟩, _, taken⟩ := Option.bind_eq_some_iff.mp stepped
    obtain ⟨⟨rfl, fresh, timed⟩, traded⟩ := (Option.ite_none_right_eq_some ..).mp taken
    obtain ⟨db, exchanged, rfl⟩ := Option.map_eq_some_iff.mp traded
    exact sound.exchange exchanged timed fresh
  | refresh call =>
    obtain ⟨⟨_, timed, rest⟩, eq⟩ := (Option.ite_none_right_eq_some ..).mp stepped
    rw [← Option.some.inj eq]
    exact sound.refresh ⟨timed, rest.1⟩ rest.2
  | cleanupCodes now =>
    obtain ⟨_, eq⟩ := (Option.ite_none_right_eq_some ..).mp stepped
    rw [← Option.some.inj eq]
    exact { sound with codes := sound.codes.subset List.filter_sublist }
  | cleanupTokens script now =>
    obtain ⟨past, eq⟩ := (Option.ite_none_right_eq_some ..).mp stepped
    rw [← Option.some.inj eq]
    refine { sound with
      tokens := sound.tokens.subset List.filter_sublist
      missing := sound.missing.delete sound.tokens sound.history fun row _ deleted => ?_ }
    simp only [Bool.not_eq_false', Bool.or_eq_true, decide_eq_true_eq, Bool.and_eq_true] at deleted
    exact deleted.imp (Nat.le_trans · past) (·.2)
  | cleanupFamilies script now =>
    obtain ⟨_, eq⟩ := (Option.ite_none_right_eq_some ..).mp stepped
    rw [← Option.some.inj eq]
    exact { sound with
      families := sound.families.subset List.filter_sublist
      tokens := sound.tokens.dropFamilies fun _ => List.mem_of_mem_filter
      missing := sound.missing.dropFamilies fun _ => List.mem_of_mem_filter }
  | expireReplies process now =>
    rw [← Option.some.inj stepped]
    refine { sound with replies := fun other reply member => ?_ }
    by_cases same : other = process
    · subst same
      simp only [OAuthSystem.withReplies, Function.update_self] at member
      exact sound.replies _ reply (List.mem_of_mem_filter member)
    · simp only [OAuthSystem.withReplies, Function.update_of_ne same] at member
      exact sound.replies _ reply member
  | restart process =>
    rw [← Option.some.inj stepped]
    refine { sound with replies := fun other reply member => ?_ }
    by_cases same : other = process
    · subst same
      simp [OAuthSystem.withReplies] at member
    · simp only [OAuthSystem.withReplies, Function.update_of_ne same] at member
      exact sound.replies _ reply member

theorem OAuthSystem.Sound.empty (clock : Timestamp) (users : List UserRow) :
    ({ clock := clock, db := { users := users } } : OAuthSystem).Sound where
  history := .nil
  codes := ⟨List.nodup_nil, nofun, nofun⟩
  families := ⟨List.nodup_nil, nofun, nofun, nofun⟩
  tokens := .nil []
  missing := nofun
  replies := nofun
  calls := nofun

theorem oauth_sound {s : OAuthSystem} (reached : Reachable oauthMachine s) : s.Sound := by
  refine reached.induction ?_ ?_
  · rintro _ ⟨clock, users, rfl⟩
    exact .empty clock users
  · intro before action next _ stepped sound
    exact OAuthAction.step_sound stepped sound

end LatexRenderer
