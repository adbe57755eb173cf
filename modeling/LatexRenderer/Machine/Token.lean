import Mathlib.Data.Set.Insert
import Mathlib.Logic.Function.Basic
import LatexRenderer.Machine.Run

/-! # Single-use tokens that are claimed for a time

A free token may be claimed by a claimant that has never claimed before; the claim has an expiry, which
its holder may move, and ends when the holder spends or releases the token or when it is taken back
after the expiry. `Custody` sets the token beside what each claimant remembers of its own claim. Two
claimants never both remember an unexpired claim, a claimant that no longer holds the token never holds
it again and cannot touch it, and a token is spent at most once.
-/

namespace Machine

universe u

/-- A token that one claimant at a time may hold, until an expiry. -/
inductive Token (ο : Type u) where
  | free
  | held (owner : ο) (expires : ℕ)
  | spent
  | void

/-- The token with the clock, the expiry each claimant takes its own claim to have, and the claimants
that were ever drawn. -/
@[ext] structure Custody (ο : Type u) where
  clock : ℕ
  token : Token ο
  remembered : ο → Option ℕ
  drawn : Set ο

/-- Who does what with a token. -/
inductive TokenEvent (ο : Type u) where
  | tick
  | claim (owner : ο)
  | extend (owner : ο)
  | spend (owner : ο)
  | release (owner : ο)
  | abandon (owner : ο)
  | recover
  | retire

namespace Custody

variable {ο : Type u} {s t : Custody ο} {event : TokenEvent ο} {owner other : ο} {expires : ℕ}

/-- The token is in this claimant's hands. -/
def heldBy (owner : ο) (s : Custody ο) : Prop :=
  ∃ expires, s.token = .held owner expires

/-- The claimant has not given up its claim and its expiry lies ahead. -/
def unexpired (owner : ο) (s : Custody ο) : Prop :=
  ∃ expires, s.remembered owner = some expires ∧ s.clock < expires

/-- The token is beyond every further claim. -/
def Closed (s : Custody ο) : Prop :=
  s.token = .spent ∨ s.token = .void

/-- An unexpired claim that its claimant has not given up is the token's, and whoever holds the token
was drawn. -/
structure Sound (s : Custody ο) : Prop where
  unexpired : ∀ {owner expires}, s.remembered owner = some expires → s.clock < expires →
    s.token = .held owner expires
  drawn : ∀ {owner}, s.heldBy owner → owner ∈ s.drawn

/-- At most one claimant has an unexpired claim. -/
theorem Sound.unique (sound : s.Sound) (first : s.unexpired owner) (second : s.unexpired other) :
    owner = other := by
  obtain ⟨expires, remembered, ahead⟩ := first
  obtain ⟨expires', remembered', ahead'⟩ := second
  have held := sound.unexpired remembered ahead
  have held' := sound.unexpired remembered' ahead'
  rw [held] at held'
  injection held'

theorem heldBy_unique (first : s.heldBy owner) (second : s.heldBy other) : owner = other := by
  obtain ⟨_, held⟩ := first
  obtain ⟨_, held'⟩ := second
  rw [held] at held'
  injection held'

section Step

variable [DecidableEq ο]

/-- The claimant forgets its claim. -/
def forget (owner : ο) (s : Custody ο) : Custody ο :=
  { s with remembered := Function.update s.remembered owner none }

/-- The claimant holds the token and remembers so. -/
def grant (owner : ο) (expires : ℕ) (s : Custody ο) : Custody ο :=
  { s with
    token := .held owner expires
    remembered := Function.update s.remembered owner (some expires)
    drawn := insert owner s.drawn }

/-- What each event may do. -/
inductive Step : Custody ο → TokenEvent ο → Custody ο → Prop
  | tick {s : Custody ο} {now : ℕ} (later : s.clock ≤ now) : Step s .tick { s with clock := now }
  | claim {s : Custody ο} {owner : ο} (free : s.token = .free) (fresh : owner ∉ s.drawn)
      (expires : ℕ) : Step s (.claim owner) (s.grant owner expires)
  | extend {s : Custody ο} {owner : ο} (held : s.heldBy owner) (expires : ℕ) :
      Step s (.extend owner) (s.grant owner expires)
  | spend {s : Custody ο} {owner : ο} (held : s.heldBy owner) :
      Step s (.spend owner) { s.forget owner with token := .spent }
  | release {s : Custody ο} {owner : ο} (held : s.heldBy owner) :
      Step s (.release owner) { s.forget owner with token := .free }
  | abandon {s : Custody ο} (owner : ο) : Step s (.abandon owner) (s.forget owner)
  | recover {s : Custody ο} {owner : ο} {expires : ℕ} (held : s.token = .held owner expires)
      (past : expires ≤ s.clock) {token : Token ο} (after : token = .free ∨ token = .void) :
      Step s .recover { s with token := token }
  | retire {s : Custody ο} (idle : ∀ owner, ¬ s.heldBy owner) :
      Step s .retire { s with token := .void }

/-- An event or no change at all. -/
def Moves (s : Custody ο) (event : Option (TokenEvent ο)) (t : Custody ο) : Prop :=
  event.elim (t = s) fun event => Step s event t

/-- Another claimant's unexpired claim would be the token's, so a token in no or other hands leaves none. -/
private theorem Sound.grant (sound : s.Sound)
    (alone : ∀ {other expires}, s.token = .held other expires → other = owner) :
    (s.grant owner expires).Sound := by
  constructor
  · intro other later remembered ahead
    by_cases same : other = owner
    · subst same
      have eq : some expires = some later := by simpa [Custody.grant] using remembered
      rw [← Option.some.inj eq]
      rfl
    · have before : s.remembered other = some later := by
        simpa [Custody.grant, same] using remembered
      exact absurd (alone (sound.unexpired before ahead)) same
  · rintro other ⟨_, held⟩
    have eq : owner = other := by
      injection held
    exact eq ▸ Set.mem_insert ..

/-- When nobody else holds the token, a claimant may forget its claim and let the token go. -/
private theorem Sound.letGo (sound : s.Sound) {token : Token ο}
    (held : s.heldBy owner) (after : ∀ other, ¬ heldBy other { s with token := token }) :
    ({ s.forget owner with token := token } : Custody ο).Sound := by
  constructor
  · intro other later remembered ahead
    by_cases same : other = owner
    · simp [forget, same] at remembered
    · have before : s.remembered other = some later := by simpa [forget, same] using remembered
      exact absurd (heldBy_unique ⟨_, sound.unexpired before ahead⟩ held) same
  · intro other again
    exact absurd again (after other)

/-- Every event keeps the custody sound. -/
theorem Step.sound (step : Step s event t) (sound : s.Sound) : t.Sound := by
  cases step with
  | tick later =>
    exact ⟨fun remembered ahead => sound.unexpired remembered (Nat.lt_of_le_of_lt later ahead),
      sound.drawn⟩
  | claim free =>
    refine sound.grant fun held => ?_
    rw [free] at held
    cases held
  | extend held =>
    exact sound.grant fun also => heldBy_unique ⟨_, also⟩ held
  | spend held => exact sound.letGo held (by rintro _ ⟨_, again⟩; cases again)
  | release held => exact sound.letGo held (by rintro _ ⟨_, again⟩; cases again)
  | abandon owner =>
    refine ⟨fun {other expires} remembered ahead => ?_, sound.drawn⟩
    by_cases same : other = owner
    · simp [forget, same] at remembered
    · exact sound.unexpired (by simpa [forget, same] using remembered) ahead
  | @recover owner expires held past token after =>
    refine ⟨fun remembered ahead => ?_, ?_⟩
    · have also := sound.unexpired remembered ahead
      rw [held] at also
      injection also with _ same
      change s.clock < _ at ahead
      omega
    · rintro _ ⟨_, again⟩
      rcases after with rfl | rfl <;> cases again
  | retire idle =>
    refine ⟨fun remembered ahead => absurd ⟨_, sound.unexpired remembered ahead⟩ (idle _), ?_⟩
    rintro _ ⟨_, again⟩
    cases again

/-- A claimant that was drawn and does not hold the token never holds it again. -/
theorem Step.lost (step : Step s event t) (drawn : owner ∈ s.drawn) (lost : ¬ s.heldBy owner) :
    owner ∈ t.drawn ∧ ¬ t.heldBy owner := by
  cases step with
  | tick => exact ⟨drawn, lost⟩
  | claim _ fresh =>
    refine ⟨Set.mem_insert_of_mem _ drawn, ?_⟩
    rintro ⟨_, held⟩
    injection held with same
    exact fresh (same ▸ drawn)
  | extend held =>
    refine ⟨Set.mem_insert_of_mem _ drawn, ?_⟩
    rintro ⟨_, again⟩
    injection again with same
    exact lost (same ▸ held)
  | abandon => exact ⟨drawn, lost⟩
  | recover _ _ after =>
    refine ⟨drawn, ?_⟩
    rintro ⟨_, again⟩
    rcases after with rfl | rfl <;> cases again
  | spend | release | retire =>
    refine ⟨drawn, ?_⟩
    rintro ⟨_, again⟩
    cases again

/-- A token that was spent or retired stays so. -/
theorem Step.closed (step : Step s event t) (closed : s.Closed) : t.Closed := by
  have idle : ∀ owner, ¬ s.heldBy owner := by
    rintro owner ⟨expires, held⟩
    rcases closed with same | same <;> simp [held] at same
  cases step with
  | tick | abandon => exact closed
  | claim free => rcases closed with same | same <;> simp [free] at same
  | extend held | spend held | release held => exact absurd held (idle _)
  | recover held => exact absurd ⟨_, held⟩ (idle _)
  | retire => exact .inr rfl

theorem Step.closes (step : Step s (.spend owner) t) : t.Closed := by
  cases step with
  | spend => exact .inl rfl

/-- Only a token that was not spent or retired is spent. -/
theorem Step.not_closed (step : Step s (.spend owner) t) : ¬ s.Closed := by
  cases step with
  | spend held =>
    obtain ⟨_, held⟩ := held
    rintro (same | same) <;> simp [held] at same

end Step

end Custody

end Machine
