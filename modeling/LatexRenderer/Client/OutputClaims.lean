import LatexRenderer.Model.Client.OutputClaims
import LatexRenderer.Client.ArtifactPublication

/-! # One client at a time

Of two attempts that are under way at the same time, the later one finds the claim of the earlier one in its
listing, and until it has come to it the earlier one may hold the output but the later one may not. Nobody
removes the claim of a living attempt. So at most one attempt holds an output, in every interleaving and
however many processes die, and publications behind these claims run as if one at a time.
-/

namespace LatexRenderer.ArtifactPublication

open Machine

/-- The attempt still has to look at this claim, or will not hold the output. -/
def AcquirePhase.Pending (phase : AcquirePhase) (other : ClaimName) : Prop :=
  match phase with
  | .made => True
  | .listing present => other ∈ present
  | .checking names => .claim other ∈ names
  | .reclaiming _ names => .claim other ∈ names
  | .failing _ => True
  | .held => False

namespace ClaimSystem

variable {s t : ClaimSystem} {name other claim : ClaimName} {phase next : AcquirePhase}

/-- Every attempt belongs to a living process and has its claim; only dead claims are about to be removed; of
two attempts one still has to look at the other. -/
structure Sound (s : ClaimSystem) : Prop where
  living : ∀ name phase, s.attempts name = some phase → name.pid ∈ s.living
  claimed : ∀ name phase, s.attempts name = some phase → name ∈ s.claims
  issued : ∀ name ∈ s.claims, name ∈ s.issued
  reclaimed : ∀ name claim names, s.attempts name = some (.reclaiming claim names) →
    s.attempts claim = none ∧ claim ∈ s.issued
  apart : ∀ name other phase otherPhase, name ≠ other → s.attempts name = some phase →
    s.attempts other = some otherPhase → phase.Pending other ∨ otherPhase.Pending name

theorem Sound.unissued (sound : s.Sound) (unissued : name ∉ s.issued) : s.attempts name = none := by
  cases found : s.attempts name with
  | none => rfl
  | some phase => exact absurd (sound.issued name (sound.claimed name phase found)) unissued

/-- An attempt goes on, and still has to look at every other attempt that it had to look at. -/
theorem Sound.advance (sound : s.Sound) (there : s.attempts name = some phase)
    (pending : ∀ other otherPhase, other ≠ name → s.attempts other = some otherPhase → phase.Pending other →
      next.Pending other)
    (reclaims : ∀ claim names, next = .reclaiming claim names → s.attempts claim = none ∧ claim ∈ s.issued) :
    (s.advance name next).Sound := by
  have cases : ∀ other otherPhase, (s.advance name next).attempts other = some otherPhase →
      (other = name ∧ otherPhase = next) ∨ (other ≠ name ∧ s.attempts other = some otherPhase) := by
    intro other otherPhase found
    by_cases same : other = name
    · subst same
      simp only [ClaimSystem.advance, Function.update_self, Option.some.injEq] at found
      exact .inl ⟨rfl, found.symm⟩
    · simp only [ClaimSystem.advance, Function.update_of_ne same] at found
      exact .inr ⟨same, found⟩
  have earlier : ∀ other otherPhase, (s.advance name next).attempts other = some otherPhase →
      ∃ before, s.attempts other = some before := by
    intro other otherPhase found
    rcases cases other otherPhase found with ⟨rfl, _⟩ | ⟨_, found⟩
    · exact ⟨phase, there⟩
    · exact ⟨otherPhase, found⟩
  constructor
  · intro other otherPhase found
    obtain ⟨before, found⟩ := earlier other otherPhase found
    exact sound.living other before found
  · intro other otherPhase found
    obtain ⟨before, found⟩ := earlier other otherPhase found
    exact sound.claimed other before found
  · exact sound.issued
  · intro other claim names found
    have free : s.attempts claim = none ∧ claim ∈ s.issued := by
      rcases cases other _ found with ⟨_, same⟩ | ⟨_, found⟩
      · exact reclaims claim names same.symm
      · exact sound.reclaimed other claim names found
    have different : claim ≠ name := by
      rintro rfl
      cases free.1.symm.trans there
    exact ⟨by simpa [ClaimSystem.advance, Function.update_of_ne different] using free.1, free.2⟩
  · intro first second firstPhase secondPhase different foundFirst foundSecond
    rcases cases first _ foundFirst with ⟨rfl, rfl⟩ | ⟨firstOther, thereFirst⟩
    · rcases cases second _ foundSecond with ⟨rfl, _⟩ | ⟨secondOther, thereSecond⟩
      · exact absurd rfl different
      · exact (sound.apart _ _ _ _ different there thereSecond).imp
          (pending second secondPhase secondOther thereSecond) id
    · rcases cases second _ foundSecond with ⟨rfl, rfl⟩ | ⟨secondOther, thereSecond⟩
      · exact (sound.apart _ _ _ _ different thereFirst there).imp id
          (pending first firstPhase firstOther thereFirst)
      · exact sound.apart _ _ _ _ different thereFirst thereSecond

/-- A claim goes away that belongs to no attempt any more. -/
theorem Sound.remove (sound : s.Sound) (dead : s.attempts claim = none) : (s.remove claim).Sound := by
  have before : ∀ name phase, (s.remove claim).attempts name = some phase →
      ∃ old, s.attempts name = some old ∧ phase = old.vanish claim := by
    intro name phase found
    obtain ⟨old, there, same⟩ := Option.map_eq_some_iff.mp found
    exact ⟨old, there, same.symm⟩
  have other : ∀ name phase, s.attempts name = some phase → name ≠ claim := by
    rintro name phase there rfl
    cases dead.symm.trans there
  have kept : ∀ (old : AcquirePhase) {name}, name ≠ claim → old.Pending name → (old.vanish claim).Pending name := by
    intro old name different pending
    cases old with
    | listing present => exact List.mem_filter.mpr ⟨pending, by simpa using different⟩
    | made | checking | reclaiming | failing | held => exact pending
  constructor
  · intro name phase found
    obtain ⟨old, there, _⟩ := before name phase found
    exact sound.living name old there
  · intro name phase found
    obtain ⟨old, there, _⟩ := before name phase found
    exact List.mem_filter.mpr ⟨sound.claimed name old there, by simpa using other name old there⟩
  · exact fun name member => sound.issued name (List.mem_filter.mp member).1
  · intro name reclaimed names found
    obtain ⟨old, there, same⟩ := before name _ found
    obtain ⟨free, known⟩ : s.attempts reclaimed = none ∧ reclaimed ∈ s.issued := by
      cases old with
      | reclaiming => cases same; exact sound.reclaimed name _ _ there
      | made | listing | checking | failing | held => cases same
    exact ⟨by simp [ClaimSystem.remove, free], known⟩
  · intro first second firstPhase secondPhase different foundFirst foundSecond
    obtain ⟨oldFirst, thereFirst, rfl⟩ := before first firstPhase foundFirst
    obtain ⟨oldSecond, thereSecond, rfl⟩ := before second secondPhase foundSecond
    exact (sound.apart _ _ _ _ different thereFirst thereSecond).imp (kept oldFirst (other second _ thereSecond))
      (kept oldSecond (other first _ thereFirst))

theorem Sound.fewer {attempts : ClaimName → Option AcquirePhase} {living : List Nat} (sound : s.Sound)
    (less : ∀ name phase, attempts name = some phase → s.attempts name = some phase)
    (alive : ∀ name phase, attempts name = some phase → name.pid ∈ living) :
    Sound { s with attempts := attempts, living := living } := by
  constructor
  · exact alive
  · exact fun name phase found => sound.claimed name phase (less name phase found)
  · exact sound.issued
  · intro name claim names found
    obtain ⟨free, known⟩ := sound.reclaimed name claim names (less name _ found)
    refine ⟨?_, known⟩
    cases left : attempts claim with
    | none => exact left
    | some phase => cases free.symm.trans (less claim phase left)
  · intro first second firstPhase secondPhase different foundFirst foundSecond
    exact sound.apart _ _ _ _ different (less _ _ foundFirst) (less _ _ foundSecond)

/-- A new attempt still has to look at everybody. -/
theorem Sound.make (sound : s.Sound) (alive : name.pid ∈ s.living) (unissued : name ∉ s.issued) :
    Sound { s with
      claims := name :: s.claims
      attempts := Function.update s.attempts name (some .made)
      issued := name :: s.issued } := by
  have cases : ∀ other phase, Function.update s.attempts name (some .made) other = some phase →
      (other = name ∧ phase = .made) ∨ (other ≠ name ∧ s.attempts other = some phase) := by
    intro other phase found
    by_cases same : other = name
    · subst same
      rw [Function.update_self, Option.some.injEq] at found
      exact .inl ⟨rfl, found.symm⟩
    · rw [Function.update_of_ne same] at found
      exact .inr ⟨same, found⟩
  constructor
  · intro other phase found
    rcases cases other phase found with ⟨rfl, _⟩ | ⟨_, there⟩
    · exact alive
    · exact sound.living other phase there
  · intro other phase found
    rcases cases other phase found with ⟨rfl, _⟩ | ⟨_, there⟩
    · exact List.mem_cons_self
    · exact List.mem_cons_of_mem _ (sound.claimed other phase there)
  · intro other member
    rcases List.mem_cons.mp member with rfl | member
    · exact List.mem_cons_self
    · exact List.mem_cons_of_mem _ (sound.issued other member)
  · intro other claim names found
    rcases cases other _ found with ⟨_, never⟩ | ⟨_, there⟩
    · cases never
    obtain ⟨free, known⟩ := sound.reclaimed other claim names there
    have different : claim ≠ name := fun same => unissued (same ▸ known)
    exact ⟨by simpa [Function.update_of_ne different] using free, List.mem_cons_of_mem _ known⟩
  · intro first second firstPhase secondPhase different foundFirst foundSecond
    rcases cases first _ foundFirst with ⟨_, rfl⟩ | ⟨_, thereFirst⟩
    · exact .inl trivial
    · rcases cases second _ foundSecond with ⟨_, rfl⟩ | ⟨_, thereSecond⟩
      · exact .inr trivial
      · exact sound.apart _ _ _ _ different thereFirst thereSecond

/-- A turn of the loop passes over no attempt that is under way. -/
theorem Sound.inspect (sound : s.Sound) {found : StateName} {rest : List StateName} {otherPhase : AcquirePhase}
    (different : other ≠ name) (there : s.attempts other = some otherPhase) (pending : .claim other ∈ found :: rest) :
    (s.inspectName name found rest).Pending other := by
  have later : found ≠ .claim other → .claim other ∈ rest := fun elsewhere =>
    (List.mem_cons.mp pending).resolve_left fun same => elsewhere same.symm
  cases found with
  | claim seen =>
    have claimed := sound.claimed other otherPhase there
    have living := sound.living other otherPhase there
    unfold inspectName
    dsimp only
    split
    · next own => exact later fun same => different (own ▸ (StateName.claim.inj same).symm)
    split
    · next own gone => exact later fun same => gone (StateName.claim.inj same ▸ claimed)
    split
    · trivial
    split
    · trivial
    · next own gone valid dead => exact later fun same => dead (StateName.claim.inj same ▸ living)
  | transaction => exact later fun same => by cases same
  | garbage => exact later fun same => by cases same
  | unknown => trivial

/-- Only a claim whose process is dead is about to be removed. -/
theorem Sound.inspect_reclaims (sound : s.Sound) {found : StateName} {rest names : List StateName}
    (same : s.inspectName name found rest = .reclaiming claim names) :
    s.attempts claim = none ∧ claim ∈ s.issued := by
  cases found with
  | claim seen =>
    unfold inspectName at same
    dsimp only at same
    split at same
    · cases same
    split at same
    · cases same
    split at same
    · cases same
    split at same
    · cases same
    next own there valid dead =>
    cases same
    refine ⟨?_, sound.issued claim (not_not.mp there)⟩
    cases active : s.attempts claim with
    | none => rfl
    | some phase => exact absurd (sound.living claim phase active) dead
  | transaction => cases same
  | garbage => cases same
  | unknown => cases same

/-- An attempt that leaves takes its own claim along, or leaves it to others. -/
theorem Sound.leave (sound : s.Sound) (name : ClaimName) (removed : Bool) :
    Sound { (if removed then s.remove name else s) with
      attempts := Function.update (if removed then s.remove name else s).attempts name none } := by
  have left : Sound { s with attempts := Function.update s.attempts name none } := by
    have less : ∀ other phase, Function.update s.attempts name none other = some phase →
        s.attempts other = some phase := by
      intro other phase found
      by_cases same : other = name
      · subst same
        rw [Function.update_self] at found
        cases found
      · rwa [Function.update_of_ne same] at found
    exact sound.fewer less fun other phase found => sound.living other phase (less other phase found)
  cases removed with
  | false => exact left
  | true =>
    have gone : ClaimSystem.Sound ({ s with attempts := Function.update s.attempts name none }.remove name) :=
      left.remove (Function.update_self name none s.attempts)
    have same : (fun other => (Function.update s.attempts name none other).map (AcquirePhase.vanish name)) =
        Function.update (s.remove name).attempts name none := by
      funext other
      by_cases own : other = name
      · subst own
        simp
      · simp [Function.update_of_ne own, ClaimSystem.remove]
    simpa [ClaimSystem.remove, same] using gone

theorem Sound.step (sound : s.Sound) {event : ClaimEvent} (taken : s.step event = some t) : t.Sound := by
  cases event with
  | spawn pid =>
    simp only [ClaimSystem.step] at taken
    split at taken
    · cases taken
    · cases taken
      exact sound.fewer (fun _ _ found => found) fun name phase found =>
        List.mem_cons_of_mem _ (sound.living name phase found)
  | die pid =>
    cases taken
    refine sound.fewer (fun name phase found => ?_) fun name phase found => ?_
    · split at found
      · cases found
      · exact found
    · split at found
      · cases found
      · next other => exact List.mem_filter.mpr ⟨sound.living name phase found, by simpa using other⟩
  | make name =>
    simp only [ClaimSystem.step] at taken
    split at taken
    · next fresh =>
      cases taken
      exact sound.make fresh.1 fresh.2
    · cases taken
  | beginList name =>
    simp only [ClaimSystem.step] at taken
    split at taken
    · next there =>
      cases taken
      exact sound.advance there (fun other phase _ found _ => sound.claimed other phase found)
        fun _ _ never => by cases never
    · cases taken
  | endList name names =>
    simp only [ClaimSystem.step] at taken
    split at taken
    · next present there =>
      split at taken
      · next complete =>
        cases taken
        have all : ∀ claim ∈ present, .claim claim ∈ names := by simpa using complete
        refine sound.advance there (fun other phase _ found pending => ?_) fun claim rest same => ?_
        · unfold foundNames
          split
          · trivial
          · exact all other pending
        · unfold foundNames at same
          split at same <;> cases same
      · cases taken
    · cases taken
  | check name =>
    simp only [ClaimSystem.step] at taken
    split at taken
    · next found rest there =>
      cases taken
      refine sound.advance there (fun other phase different active pending => sound.inspect different active pending)
        fun claim names same => sound.inspect_reclaims same
    · cases taken
  | reclaim name =>
    simp only [ClaimSystem.step] at taken
    split at taken
    · next claim rest there =>
      cases taken
      have dead := (sound.reclaimed name claim rest there).1
      have still : (s.remove claim).attempts name = some (.reclaiming claim rest) := by
        simp [ClaimSystem.remove, there, AcquirePhase.vanish]
      exact (sound.remove dead).advance still (fun _ _ _ _ pending => pending) fun _ _ never => by cases never
    · cases taken
  | hold name =>
    simp only [ClaimSystem.step] at taken
    split at taken
    · next there =>
      cases taken
      exact sound.advance there (fun other phase different active pending => (by cases pending))
        fun _ _ never => by cases never
    · cases taken
  | fail name =>
    simp only [ClaimSystem.step] at taken
    split at taken
    · cases taken
    · next phase _ there =>
      cases taken
      exact sound.advance there (fun _ _ _ _ _ => trivial) fun _ _ never => by cases never
    · cases taken
  | leave name removed =>
    have gone := sound.leave name removed
    simp only [ClaimSystem.step] at taken
    split at taken
    · cases taken
      exact gone
    · cases taken
      exact gone
    · cases taken

end ClaimSystem

open ClaimSystem

theorem claimsSound_reachable {s : ClaimSystem} (reached : Reachable claimMachine s) : s.Sound := by
  refine reached.induction ?_ fun _ taken sound => sound.step taken
  rintro s ⟨quiet, issued⟩
  have none : ∀ name phase, s.attempts name ≠ some phase := fun name phase found => by
    cases (quiet name).symm.trans found
  exact ⟨fun name phase found => absurd found (none name phase), fun name phase found => absurd found (none name phase),
    issued, fun name claim names found => absurd found (none name _),
    fun first second phase _ _ found _ => absurd found (none first phase)⟩

theorem outputClaims_exclusive : outputClaims.Exclusive := by
  intro s reached first second holdsFirst holdsSecond
  by_contra different
  rcases (claimsSound_reachable reached).apart _ _ _ _ different holdsFirst holdsSecond with never | never
  · exact never
  · exact never

section Concurrent

variable {T : Type} {place : ArtifactPlace}
  {g : Guarded ClaimSystem ClaimName (ArtifactBuild T) ArtifactSite ArtifactDisk ArtifactAnswer ArtifactError T}

/-- Publications of any number of clients are atomic. In every interleaving of their attempts and their steps,
with processes that die anywhere: at most one of them holds the output, and what its call works on is the set
that counted when the call began; the set that counts is on the disk, is that one or the whole new one, and
the recovery of the next call puts it at the output and fails only when the file system does; a call that
returns has its set there and has lost no edit of the user. -/
theorem concurrentPublications_atomic
    (reached : Reachable (outputClaims.system (publications place T)) g) :
    (∀ first second, outputClaims.holds g.lock first → outputClaims.holds g.lock second → first = second) ∧
    (∀ name session, g.sessions name = some session → outputClaims.holds g.lock name ∧
      (session.call.Version session.began.counted g.shared.counted ∨ g.shared.settled = true ∧
        ∃ new, g.shared.counted = some new ∧ session.call.Builds session.began.counted new)) ∧
    (∀ d, g.shared.counted = some d → g.shared.output = some d ∨
      ∃ transaction, g.shared.transaction = some transaction ∧ transaction.backup = some d) ∧
    ((recover place).wp Process.anyAnswer (fun _ t => t = ⟨g.shared.counted, none, []⟩)
        (fun error t => error = .fileSystem ∧ t.counted = g.shared.counted)
        (fun _ t => t.counted = g.shared.counted) g.shared ∧
      (recover place).Completes (fun _ t => t = ⟨g.shared.counted, none, []⟩) g.shared) ∧
    ∀ name call value target,
      outputClaims.Step (publications place T) g (.finish name call (.ok value)) target →
      ∃ session new, g.sessions name = some session ∧ session.call = call ∧ call.outcome = some value ∧
        target.shared.output = some new ∧ target.shared.counted = some new ∧
        call.Builds session.began.counted new ∧
        optionalTree (call.latest session.began.counted) = optionalTree session.began.counted := by
  have followed := Guard.followed outputClaims_exclusive reached
  obtain ⟨⟨shared, running⟩, ⟨origin, events, init, run⟩, same, _, busy⟩ := followed.host
  obtain rfl : shared = g.shared := same
  obtain ⟨recovers, kept, between, returns⟩ := publications_atomic init run
  refine ⟨outputClaims_exclusive g.lock followed.lock, fun name session found => ?_, kept, recovers, ?_⟩
  · exact ⟨followed.holders name session found, between session (busy name session found)⟩
  · intro name call value target step
    cases step with
    | returned name call began value found =>
      obtain rfl : running = some _ := busy name _ found
      obtain ⟨session, new, ran, called, outcome, there, counted, builds, unedited⟩ :=
        returns call value _ (.returned g.shared call began value)
      cases ran
      exact ⟨_, new, found, called, outcome, there, counted, builds, unedited⟩

end Concurrent

def exampleStat (identity : Nat) : ArtifactStat := ⟨identity, 3, 10, 10⟩

/-- An output with one file. -/
def exampleOld : ArtifactDirectory :=
  ⟨exampleStat 1, .directory, [⟨"result.pdf", exampleStat 2, .file, [79, 108, 100]⟩]⟩

def exampleEntries : List ArtifactEntry := [⟨"result.pdf", exampleStat 3, .file, [78, 101, 119]⟩]

def examplePlace : ArtifactPlace :=
  ⟨"/home/user/.render", fun _ => 100, fun _ => by decide, fun _ _ => by decide, by decide⟩

/-- A call that builds another file in its stead. -/
def exampleBuild : ArtifactBuild Unit where
  steps := [.write exampleEntries]
  outcome := some ()
  staged := by
    intro entries member
    cases List.mem_singleton.mp member
    exact ⟨by decide, by decide, by decide⟩

/-- Twenty steps into the call the new set is at the output. -/
def exampleKilled : ArtifactDisk :=
  (Service.exec ((publications examplePlace Unit).program exampleBuild) ⟨some exampleOld, none, []⟩
    (List.replicate 20 (.done {}))).2

/-- Process 7 gets hold of the output, and process 8 gives up. -/
def exampleClaims : List ClaimEvent :=
  [.spawn 7, .spawn 8, .make ⟨7, 1⟩, .beginList ⟨7, 1⟩, .endList ⟨7, 1⟩ [.garbage, .claim ⟨7, 1⟩], .check ⟨7, 1⟩,
    .check ⟨7, 1⟩, .hold ⟨7, 1⟩, .make ⟨8, 2⟩, .beginList ⟨8, 2⟩,
    .endList ⟨8, 2⟩ [.claim ⟨7, 1⟩, .claim ⟨8, 2⟩], .check ⟨8, 2⟩]

theorem exampleKilled_reachable : ∃ lock, Reachable (outputClaims.system (publications examplePlace Unit))
    ⟨lock, exampleKilled, fun _ => none⟩ := by
  have replayed : (replay? ClaimSystem.step {} exampleClaims).any
      (fun s => s.attempts ⟨7, 1⟩ == some .held) = true := by decide
  obtain ⟨lock, run, held⟩ : ∃ lock, Run claimMachine {} exampleClaims lock ∧
      (lock.attempts ⟨7, 1⟩ == some .held) = true := exists_run_of_replay? replayed
  have holds : outputClaims.holds lock ⟨7, 1⟩ := eq_of_beq held
  obtain ⟨dead, dies, gone⟩ : ∃ dead, outputClaims.machine.Step lock (.die 7) dead ∧
      dead.attempts ⟨7, 1⟩ = none := ⟨_, rfl, rfl⟩
  have start : Reachable (outputClaims.system (publications examplePlace Unit))
      ⟨{}, ⟨some exampleOld, none, []⟩, fun _ => none⟩ :=
    .init ⟨⟨fun _ => rfl, fun _ never => by cases never⟩, ⟨rfl, rfl, fun d same => by cases same; decide⟩,
      fun _ => rfl⟩
  have lost : ¬ outputClaims.holds dead ⟨7, 1⟩ := fun alive => by cases gone.symm.trans alive
  have killed := Guard.reachable_killed exampleBuild (List.replicate 20 (.done {})) start run holds dies lost
  exact ⟨dead, killed⟩

/-- The new set is at the output without its marker, the old one counts, and the recovery brings it back. -/
theorem concurrentPublications_atomic_killed :
    (exampleKilled.output.map ArtifactDirectory.entries = some exampleEntries ∧
      exampleKilled.counted = some exampleOld) ∧
      (recover examplePlace).Completes (fun _ t => t = ⟨some exampleOld, none, []⟩) exampleKilled := by
  have counted : exampleKilled.counted = some exampleOld := by decide
  obtain ⟨lock, reached⟩ := exampleKilled_reachable
  have completes := (concurrentPublications_atomic reached).2.2.2.1.2
  rw [counted] at completes
  exact ⟨⟨by decide, counted⟩, completes⟩

end LatexRenderer.ArtifactPublication
