import LatexRenderer.Machine.History
import LatexRenderer.Model.Deploy.SetupSession

/-! # What is applied was reviewed and confirmed

The host applies the envelope of the newest preview under the token of this preview, while nothing else runs and the
session is open. A token that was given out before an apply is of no use after it.
-/

namespace LatexRenderer

open Machine

variable {Input Review Envelope Credentials Initial Readiness : Type}
  {host : SetupHost Input Review Envelope Credentials Initial Readiness} {deadline now : Rat}
  {s t : SetupSession Review Envelope Initial Readiness} {history : List (SetupEntry Envelope)}
  {event : SetupEvent Input Envelope Credentials}

section Specification

/-- A successful preview, or a call of `host.apply`. -/
def SetupEntry.Turning : SetupEntry Envelope → Prop
  | .reviewed _ _ | .applied _ _ _ => True
  | _ => False

/-- No operation of the host is running at the end of the history. -/
def hostIdle : List (SetupEntry Envelope) → Prop
  | [] => True
  | .began :: _ | .applied _ _ _ :: _ => False
  | .answered :: _ => True
  | _ :: earlier => hostIdle earlier

/-- `host.apply` may be called: the newest preview is the one of the envelope and the token, nothing was applied since,
nothing runs, and the session is neither closed nor expired nor complete. -/
structure AppliesConfirmed (deadline : Rat) (earlier : List (SetupEntry Envelope)) (envelope : Option Envelope)
    (token : Text) (now : Rat) : Prop where
  newest : Latest SetupEntry.Turning (.reviewed envelope token) earlier
  alone : hostIdle earlier
  unexpired : now < deadline
  unclosed : .closed ∉ earlier
  uncompleted : .completed ∉ earlier

/-- What holds of an entry after those before it; a token is accepted when it was given out after all calls of
`host.apply`. -/
def SetupEntry.Sound (deadline : Rat) (earlier : List (SetupEntry Envelope)) : SetupEntry Envelope → Prop
  | .applied envelope token now => AppliesConfirmed deadline earlier envelope token now
  | .accepted token => ∀ after envelope other now before, earlier = after ++ .applied envelope other now :: before →
      token ∉ before.filterMap SetupEntry.issued?
  | _ => True

end Specification

section Invariant

/-- The variables of a session agree with its history. -/
structure SetupSound (deadline : Rat) (s : SetupSession Review Envelope Initial Readiness) : Prop where
  chronicle : Chronicle (SetupEntry.Sound deadline) s.history
  free : s.busy = false → s.work = .idle
  idle : (∀ call, s.work ≠ .running call) → hostIdle s.history
  closed : .closed ∈ s.history → s.phase = .closed
  completed : .completed ∈ s.history → s.phase = .complete ∨ s.phase = .closed
  running : ∀ call, s.work = .running call → .closed ∉ s.history ∧ .completed ∉ s.history ∧ s.expires = deadline
  expires : s.expires = deadline ∨ s.phase = .closed
  confirmed : ∀ token, s.confirmation = some token → Latest SetupEntry.Turning (.reviewed s.pending token) s.history
  issued : (s.history.filterMap SetupEntry.issued?).Nodup

/-- A session in which a call may begin. -/
structure SetupOpen (deadline now : Rat) (s : SetupSession Review Envelope Initial Readiness) : Prop where
  sound : SetupSound deadline s
  free : s.busy = false
  unclosed : s.phase ≠ .closed
  uncompleted : s.phase ≠ .complete
  unexpired : now < s.expires

theorem SetupSound.alive (sound : SetupSound deadline s) (now : Rat) : SetupSound deadline (s.alive now) := by
  unfold SetupSession.alive
  split
  · next expired =>
    have work := sound.free expired.2
    exact {
      chronicle := sound.chronicle.cons trivial
      free := fun _ => work
      idle := fun none => sound.idle none
      closed := fun _ => rfl
      completed := fun _ => .inr rfl
      running := fun call never => (by cases work.symm.trans never)
      expires := .inr rfl
      confirmed := fun token never => (by cases never)
      issued := sound.issued }
  · exact sound

/-- A session in which `alive` finds nothing and that is free is open. -/
theorem SetupSound.opens (sound : SetupSound deadline s) (unclosed : (s.alive now).phase ≠ .closed)
    (free : ¬ (s.alive now).busy = true) (uncompleted : (s.alive now).phase ≠ .complete) :
    SetupOpen deadline now (s.alive now) := by
  refine ⟨sound.alive now, Bool.eq_false_iff.mpr free, unclosed, uncompleted, ?_⟩
  unfold SetupSession.alive at unclosed free ⊢
  split
  · next expired =>
    rw [if_pos expired] at unclosed
    exact absurd rfl unclosed
  · next live =>
    rw [if_neg live] at free
    by_contra late
    exact live ⟨Rat.not_lt.mp late, Bool.eq_false_iff.mpr free⟩

/-- A call keeps the invariant when its operation does in an open session. -/
theorem SetupSound.exclusive {operation : SetupSession Review Envelope Initial Readiness →
      SetupSession Review Envelope Initial Readiness} (sound : SetupSound deadline s)
    (keeps : ∀ s, SetupOpen deadline now s → SetupSound deadline (operation { s with busy := true })) :
    SetupSound deadline (s.exclusive now operation).1 := by
  unfold SetupSession.exclusive
  dsimp only
  split
  · exact sound.alive now
  · next unclosed =>
    split
    · exact sound.alive now
    · next free =>
      split
      · exact sound.alive now
      · next uncompleted => exact keeps _ (sound.opens unclosed free uncompleted)

/-- An open session was neither closed nor completed. -/
theorem SetupOpen.fresh (opened : SetupOpen deadline now s) : .closed ∉ s.history ∧ .completed ∉ s.history := by
  refine ⟨fun closed => opened.unclosed (opened.sound.closed closed), fun completed => ?_⟩
  rcases opened.sound.completed completed with complete | closed
  · exact opened.uncompleted complete
  · exact opened.unclosed closed

theorem SetupOpen.expires_eq (opened : SetupOpen deadline now s) : s.expires = deadline :=
  opened.sound.expires.resolve_right opened.unclosed

theorem SetupOpen.hostIdle (opened : SetupOpen deadline now s) : hostIdle s.history := by
  apply opened.sound.idle
  rw [opened.sound.free opened.free]
  intro call never
  cases never

/-- What the part of a call before the host may add to the history. -/
def SetupEntry.Opening : SetupEntry Envelope → Prop
  | .began | .accepted _ | .applied _ _ _ => True
  | _ => False

/-- The part of a call before the host keeps the invariant. -/
theorem SetupOpen.moves (opened : SetupOpen deadline now s) (new : List (SetupEntry Envelope))
    (opening : ∀ entry ∈ new, entry.Opening) (past : t.history = new ++ s.history) (same : t.expires = s.expires)
    (busy : t.busy = true) (chronicle : Chronicle (SetupEntry.Sound deadline) t.history)
    (idle : (∀ call, t.work ≠ .running call) → LatexRenderer.hostIdle t.history)
    (confirmed : ∀ token, t.confirmation = some token → Latest SetupEntry.Turning (.reviewed t.pending token) t.history) :
    SetupSound deadline t := by
  have fresh : .closed ∉ t.history ∧ .completed ∉ t.history := by
    rw [past, List.mem_append, List.mem_append, not_or, not_or]
    exact ⟨⟨fun added => opening _ added, opened.fresh.1⟩, fun added => opening _ added, opened.fresh.2⟩
  have none : new.filterMap SetupEntry.issued? = [] := by
    rw [List.filterMap_eq_nil_iff]
    intro entry member
    have begins := opening entry member
    cases entry <;> first | rfl | exact begins.elim
  have issued : (t.history.filterMap SetupEntry.issued?).Nodup := by
    rw [past, List.filterMap_append, none]
    exact opened.sound.issued
  exact {
    chronicle, idle, confirmed, issued
    free := fun never => absurd (busy.symm.trans never) (by decide)
    closed := fun member => absurd member fresh.1
    completed := fun member => absurd member fresh.2
    running := fun _ _ => ⟨fresh.1, fresh.2, same.trans opened.expires_eq⟩
    expires := .inl (same.trans opened.expires_eq) }

theorem SetupOpen.calls (opened : SetupOpen deadline now s) (call : HostCall Review Envelope Initial)
    (past : t.history = s.history) (same : t.expires = s.expires) (busy : t.busy = true)
    (kept : t.confirmation = none ∨ t.confirmation = s.confirmation ∧ t.pending = s.pending) :
    SetupSound deadline (t.calls call) := by
  have began : (t.calls call).history = [.began] ++ s.history := by
    rw [← past]
    rfl
  refine opened.moves _ (by simp [SetupEntry.Opening]) began same busy ?_ (fun none => absurd rfl (none call)) ?_
  · rw [began]
    exact opened.sound.chronicle.cons trivial
  · intro token held
    rcases kept with none | ⟨confirmation, pending⟩
    · cases none.symm.trans held
    · rw [began]
      have before := opened.sound.confirmed token (confirmation.symm.trans held)
      rw [← pending] at before
      exact before.cons fun never => never

theorem SetupOpen.ends (opened : SetupOpen deadline now s) (result : Except SetupError (SetupReply Review Readiness))
    (past : t.history = s.history) (same : t.expires = s.expires) (busy : t.busy = true)
    (kept : t.confirmation = none ∨ t.confirmation = s.confirmation ∧ t.pending = s.pending) :
    SetupSound deadline (t.ends result) := by
  have before : (t.ends result).history = [] ++ s.history := past
  refine opened.moves [] (fun entry never => absurd never List.not_mem_nil) before same busy ?_ (fun _ => ?_) ?_
  · rw [before]
    exact opened.sound.chronicle
  · rw [before]
    exact opened.hostIdle
  · intro token held
    rcases kept with none | ⟨confirmation, pending⟩
    · cases none.symm.trans held
    · rw [before]
      have latest := opened.sound.confirmed token (confirmation.symm.trans held)
      rwa [← pending] at latest

theorem SetupOpen.beginPreview (opened : SetupOpen deadline now s) (input : Input) :
    SetupSound deadline (SetupSession.beginPreview host input { s with busy := true }) := by
  unfold SetupSession.beginPreview
  dsimp only
  split
  · exact opened.ends _ rfl rfl rfl (.inl rfl)
  · split
    · exact opened.ends _ rfl rfl rfl (.inl rfl)
    · exact opened.calls _ rfl rfl rfl (.inl rfl)

theorem SetupOpen.beginRecover (opened : SetupOpen deadline now s) :
    SetupSound deadline (SetupSession.beginRecover host { s with busy := true }) := by
  unfold SetupSession.beginRecover
  split
  · exact opened.calls _ rfl rfl rfl (.inl rfl)
  · exact opened.ends _ rfl rfl rfl (.inr ⟨rfl, rfl⟩)

theorem sameToken_eq_true {actual expected : Option Text} (same : sameToken actual expected = true) :
    ∃ token, actual = some token ∧ expected = some token := by
  unfold sameToken at same
  split at same
  · next token confirmation =>
    obtain rfl : token = confirmation := of_decide_eq_true (Bool.and_eq_true_iff.mp same).2
    exact ⟨token, rfl, rfl⟩
  · cases same

/-- The token of the newest preview was given out after all calls of `host.apply`. -/
theorem issued_after {envelope : Option Envelope} {token : Text}
    (latest : Latest SetupEntry.Turning (.reviewed envelope token) history)
    (distinct : (history.filterMap SetupEntry.issued?).Nodup) :
    SetupEntry.Sound deadline history (.accepted token) := by
  intro after applied other now before split again
  have own : SetupEntry.Turning (.applied applied other now) := trivial
  obtain ⟨since, between, rfl⟩ := latest.older (fun never => by cases never) own split
  rw [split, List.filterMap_append, List.filterMap_append] at distinct
  have twice := (List.nodup_append.mp distinct).2.2 token
    (List.mem_append_right _ (by simp [SetupEntry.issued?])) token
    (by rw [List.filterMap_cons]; exact again)
  exact twice rfl

theorem SetupOpen.beginApply (opened : SetupOpen deadline now s) (token : Option Text) (credentials : Option Credentials) :
    SetupSound deadline (SetupSession.beginApply host now token credentials { s with busy := true }) := by
  unfold SetupSession.beginApply
  split
  · next presented =>
    obtain ⟨shown, rfl, held⟩ := sameToken_eq_true presented.2
    have newest := opened.sound.confirmed shown held
    have accepted : Chronicle (SetupEntry.Sound deadline) (.accepted shown :: s.history) :=
      opened.sound.chronicle.cons (issued_after newest opened.sound.issued)
    dsimp only [Option.getD_some]
    split
    · refine opened.moves [.accepted shown] (by simp [SetupEntry.Opening]) rfl rfl rfl accepted
        (fun _ => opened.hostIdle) fun other kept => ?_
      exact (opened.sound.confirmed other kept).cons fun never => never
    · next initial =>
      refine opened.moves [.applied s.pending shown now, .accepted shown] (by simp [SetupEntry.Opening]) rfl rfl rfl
        (accepted.cons ?_) (fun none => absurd rfl (none _)) fun other never => (by cases never)
      exact {
        newest := newest.cons fun never => never
        alone := opened.hostIdle
        unexpired := opened.expires_eq ▸ opened.unexpired
        unclosed := by simpa using opened.fresh.1
        uncompleted := by simpa using opened.fresh.2 }
  · exact opened.ends _ rfl rfl rfl (.inr ⟨rfl, rfl⟩)

theorem SetupSound.close (sound : SetupSound deadline s) : SetupSound deadline s.close.1 := by
  unfold SetupSession.close
  split
  · exact sound
  · next free =>
    have work := sound.free (Bool.eq_false_iff.mpr free)
    exact {
      chronicle := sound.chronicle.cons trivial
      free := fun _ => work
      idle := fun none => sound.idle none
      closed := fun _ => rfl
      completed := fun _ => .inr rfl
      running := fun call never => (by cases work.symm.trans never)
      expires := .inr rfl
      confirmed := fun token never => (by cases never)
      issued := sound.issued }

theorem SetupSound.status (sound : SetupSound deadline s) (first second : Rat) :
    SetupSound deadline (s.status first second).1 := by
  unfold SetupSession.status
  dsimp only
  split
  · exact sound.alive first
  · split
    · exact sound.alive first
    · split
      · exact sound.alive first
      · exact (sound.alive first).exclusive fun s opened => opened.calls .current rfl rfl rfl (.inr ⟨rfl, rfl⟩)

/-- The call that waits for the host goes on to its end. -/
theorem SetupSound.answers {call : HostCall Review Envelope Initial} (sound : SetupSound deadline s)
    (waits : s.work = .running call) {result : Except SetupError (SetupReply Review Readiness)}
    (ended : t.work = .ended result) (same : t.expires = s.expires) (busy : t.busy = s.busy)
    (past : t.history = .answered :: s.history ∨ t.phase = .complete ∧ t.history = .completed :: .answered :: s.history)
    (kept : ∀ token, t.confirmation = some token → s.confirmation = some token ∧ t.pending = s.pending) :
    SetupSound deadline t := by
  obtain ⟨unclosed, uncompleted, expires⟩ := sound.running call waits
  have holds : s.busy = true := by
    by_contra free
    cases waits.symm.trans (sound.free (Bool.eq_false_iff.mpr free))
  have waited : Chronicle (SetupEntry.Sound deadline) (.answered :: s.history) := sound.chronicle.cons trivial
  have latest : ∀ token, t.confirmation = some token →
      Latest SetupEntry.Turning (.reviewed t.pending token) (.answered :: s.history) := by
    intro token held
    obtain ⟨confirmation, pending⟩ := kept token held
    rw [pending]
    exact (sound.confirmed token confirmation).cons fun never => never
  have free : t.busy = false → t.work = .idle := fun never => by
    rw [busy, holds] at never
    cases never
  have running : ∀ call, t.work = .running call →
      .closed ∉ t.history ∧ .completed ∉ t.history ∧ t.expires = deadline := fun call never => by
    cases ended.symm.trans never
  have expired : t.expires = deadline ∨ t.phase = .closed := .inl (same.trans expires)
  rcases past with past | ⟨complete, past⟩
  · exact {
      free, running, expires := expired
      chronicle := past ▸ waited
      idle := fun _ => past ▸ trivial
      closed := fun member => absurd (past ▸ member) (by simpa using unclosed)
      completed := fun member => absurd (past ▸ member) (by simpa using uncompleted)
      confirmed := fun token held => past ▸ latest token held
      issued := past ▸ sound.issued }
  · exact {
      free, running, expires := expired
      chronicle := past ▸ waited.cons trivial
      idle := fun _ => past ▸ trivial
      closed := fun member => absurd (past ▸ member) (by simpa using unclosed)
      completed := fun _ => .inl complete
      confirmed := fun token held => past ▸ (latest token held).cons fun never => never
      issued := past ▸ sound.issued }

/-- A preview that succeeded gives out a token for its envelope. -/
theorem SetupSound.reviews {call : HostCall Review Envelope Initial} (sound : SetupSound deadline s)
    (waits : s.work = .running call) (candidate : Review) (envelope : Option Envelope) {token : Text}
    (fresh : token ∉ s.history.filterMap SetupEntry.issued?) :
    SetupSound deadline (s.previewDone host candidate (some envelope) token) := by
  obtain ⟨unclosed, uncompleted, expires⟩ := sound.running call waits
  have ended : ∀ call, (s.previewDone host candidate (some envelope) token).work ≠ .running call := by
    intro call never
    unfold SetupSession.previewDone at never
    dsimp only at never
    split at never <;> cases never
  have holds : s.busy = true := by
    by_contra free
    cases waits.symm.trans (sound.free (Bool.eq_false_iff.mpr free))
  have waited : Chronicle (SetupEntry.Sound deadline) (.answered :: s.history) := sound.chronicle.cons trivial
  exact {
    chronicle := waited.cons trivial
    free := fun never => absurd (holds.symm.trans never) (by decide)
    idle := fun _ => trivial
    closed := fun member => absurd member (by simpa [SetupSession.previewDone] using unclosed)
    completed := fun member => absurd member (by simpa [SetupSession.previewDone] using uncompleted)
    running := fun call never => absurd never (ended call)
    expires := .inl expires
    confirmed := fun other held => by
      cases held
      exact .new _ _
    issued := List.nodup_cons.mpr ⟨fresh, sound.issued⟩ }

theorem setupStep_sound (sound : SetupSound deadline s) (taken : setupStep host s event = some t) :
    SetupSound deadline t := by
  cases event with
  | status first second =>
    cases taken
    exact sound.status first second
  | preview now input =>
    cases taken
    exact sound.exclusive fun s opened => opened.beginPreview input
  | apply now token credentials =>
    cases taken
    exact sound.exclusive fun s opened => opened.beginApply token credentials
  | recover now =>
    cases taken
    exact sound.exclusive fun s opened => opened.beginRecover
  | close =>
    cases taken
    exact sound.close
  | currentDone answer =>
    simp only [setupStep] at taken
    split at taken
    · next waits =>
      cases taken
      unfold SetupSession.currentDone
      split
      · exact sound.answers waits rfl rfl rfl (.inl rfl) fun token held => ⟨held, rfl⟩
      · exact sound.answers waits rfl rfl rfl (.inl rfl) fun token held => ⟨held, rfl⟩
    · cases taken
  | previewDone answer token =>
    simp only [setupStep] at taken
    split at taken
    · next candidate waits =>
      split at taken
      · cases taken
      · next fresh =>
        cases taken
        cases answer with
        | none => exact sound.answers waits rfl rfl rfl (.inl rfl) fun token held => ⟨held, rfl⟩
        | some envelope => exact sound.reviews waits candidate envelope fresh
    · cases taken
  | applyDone succeeds =>
    simp only [setupStep] at taken
    split at taken
    · next waits =>
      cases taken
      unfold SetupSession.applyDone
      split
      · exact sound.answers waits rfl rfl rfl (.inr ⟨rfl, rfl⟩) fun token held => ⟨held, rfl⟩
      · exact sound.answers waits rfl rfl rfl (.inl rfl) fun token held => ⟨held, rfl⟩
    · cases taken
  | recoverDone answer =>
    simp only [setupStep] at taken
    split at taken
    · next waits =>
      cases taken
      unfold SetupSession.recoverDone
      split
      · exact sound.answers waits rfl rfl rfl (.inl rfl) fun token held => ⟨held, rfl⟩
      · split
        · exact sound.answers waits rfl rfl rfl (.inr ⟨rfl, rfl⟩) fun token held => ⟨held, rfl⟩
        · exact sound.answers waits rfl rfl rfl (.inl rfl) fun token held => ⟨held, rfl⟩
    · cases taken
  | returns =>
    simp only [setupStep] at taken
    split at taken
    · next result waits =>
      cases taken
      exact {
        chronicle := sound.chronicle
        free := fun _ => rfl
        idle := fun _ => sound.idle fun call never => (by cases waits.symm.trans never)
        closed := sound.closed
        completed := sound.completed
        running := fun call never => (by cases never)
        expires := sound.expires
        confirmed := sound.confirmed
        issued := sound.issued }
    · cases taken

theorem setupSound_of_created {lifetimeMs : Int} (created : createServerSetupSession lifetimeMs now = .ok s) :
    SetupSound s.expires s := by
  unfold createServerSetupSession at created
  split at created
  · cases created
  · cases created
    exact {
      chronicle := .nil
      free := fun _ => rfl
      idle := fun _ => trivial
      closed := fun never => absurd never List.not_mem_nil
      completed := fun never => absurd never List.not_mem_nil
      running := fun call never => (by cases never)
      expires := .inl rfl
      confirmed := fun token never => (by cases never)
      issued := List.nodup_nil }

end Invariant

section Runs

/-- In every session that can be reached, each call of `host.apply` was confirmed, and each token that was accepted was
given out after all earlier ones. -/
theorem setup_applies_confirmed (reached : Reachable (setupMachine host deadline) s) :
    Chronicle (SetupEntry.Sound deadline) s.history := by
  have sound : SetupSound deadline s := by
    refine reached.induction (P := fun s => SetupSound deadline s) ?_ fun _ taken held => setupStep_sound held taken
    rintro s ⟨lifetimeMs, now, created, rfl⟩
    exact setupSound_of_created created
  exact sound.chronicle

/-- A host of one review. -/
def plainHost : SetupHost Unit Unit Nat Unit Unit Unit where
  scope := .other
  recovers := true
  validateServerSetupReview := some
  reviewServerSetupReadiness := some
  validateServerInitialInput _ _ := none
  validateServerIngressInput _ _ := none

/-- A token. -/
def plainToken : Text := List.replicate 43 'a'

/-- A session that was just created, and previews, fails to apply, and is refused the token. -/
def plainSession : SetupSession Unit Nat Unit Unit where
  expires := 1000
  phase := .editing
  busy := false
  installed := none
  pending := none
  pendingReview := none
  confirmation := none
  reviews := 0
  work := .idle
  history := []

def plainEvents : List (SetupEvent Unit Nat Unit) :=
  [.preview 1 (), .previewDone (some (some 7)) plainToken, .returns, .apply 2 (some plainToken) none, .applyDone false,
    .returns, .apply 3 (some plainToken) none, .returns]

theorem setup_applies_confirmed_plain : ∃ s : SetupSession Unit Nat Unit Unit,
    Reachable (setupMachine plainHost 1000) s ∧
      s.history = [.answered, .applied (some 7) plainToken 2, .accepted plainToken, .reviewed (some 7) plainToken,
        .answered, .began] ∧
      AppliesConfirmed 1000 [.accepted plainToken, .reviewed (some 7) plainToken, .answered, .began] (some 7)
        plainToken 2 := by
  have created : createServerSetupSession 1000 0 = .ok plainSession := by
    unfold createServerSetupSession
    rw [if_neg (by decide)]
    have sum : (0 : Rat) + ((1000 : Int) : Rat) = 1000 := by decide +kernel
    rw [sum]
    rfl
  have replayed : (replay? (setupStep plainHost) plainSession plainEvents).any (fun s => decide (s.history =
      [.answered, .applied (some 7) plainToken 2, .accepted plainToken, .reviewed (some 7) plainToken, .answered,
        .began])) = true := by decide +kernel
  obtain ⟨s, run, logged⟩ := exists_run_of_replay? replayed
  have past := of_decide_eq_true logged
  have reached : Reachable (setupMachine plainHost 1000) s := run.reachable (.init ⟨1000, 0, created, rfl⟩)
  exact ⟨s, reached, past, setup_applies_confirmed reached [.answered] _ _ past⟩

end Runs

end LatexRenderer
