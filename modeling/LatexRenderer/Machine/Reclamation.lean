import Mathlib.Data.Set.Insert
import LatexRenderer.Machine.Run

/-! # Reclaiming entries that holders pin

Entries are created once, with a pin of their creator, and pinned by further holders while they are live.
A collector condemns an entry without pins, clears its storage, and only then erases it. Pins keep an
entry live in every run. That what is stored always belongs to an entry needs one thing more: whoever
fills the storage of an entry does so before a collector has cleared it.
-/

namespace Machine

universe u v

/-- The entries by what has become of them, and the pins. `claimed` are the entries a collector works on,
`cleared` those whose storage it has found or made empty. -/
@[ext] structure Reclaim (ι : Type u) (κ : Type v) where
  live : Set ι
  condemned : Set ι
  pins : Set (ι × κ)
  issued : Set ι
  claimed : Set ι
  cleared : Set ι
  stored : Set ι

/-- What happens to an entry. -/
inductive ReclaimLabel (ι : Type u) (κ : Type v) where
  | create (entry : ι) (holder : κ)
  | pin (entry : ι) (holder : κ)
  | unpin (entry : ι) (holder : κ)
  | fill (entry : ι)
  | condemn (entry : ι)
  | clear (entry : ι)
  | erase (entry : ι)
  | forget

namespace Reclaim

variable {ι : Type u} {κ : Type v} {s t : Reclaim ι κ} {label : ReclaimLabel ι κ}

/-- One step. A collector that ends or dies forgets what it has claimed. -/
def Step (s : Reclaim ι κ) (label : ReclaimLabel ι κ) (t : Reclaim ι κ) : Prop :=
  match label with
  | .create entry holder => entry ∉ s.issued ∧ t = { s with
      live := insert entry s.live
      issued := insert entry s.issued
      pins := insert (entry, holder) s.pins }
  | .pin entry holder => entry ∈ s.live ∧ t = { s with pins := insert (entry, holder) s.pins }
  | .unpin entry holder => t = { s with pins := s.pins \ {(entry, holder)} }
  | .fill entry => t = { s with stored := insert entry s.stored }
  | .condemn entry => entry ∈ s.issued ∧ (∀ holder, (entry, holder) ∉ s.pins) ∧ t = { s with
      live := s.live \ {entry}
      condemned := insert entry s.condemned
      claimed := insert entry s.claimed }
  | .clear entry => entry ∈ s.claimed ∧ t = { s with
      stored := s.stored \ {entry}
      cleared := insert entry s.cleared }
  | .erase entry => entry ∈ s.cleared ∧ t.claimed ⊆ s.claimed ∧ t.cleared ⊆ s.cleared ∧ t = { s with
      condemned := s.condemned \ {entry}
      claimed := t.claimed
      cleared := t.cleared }
  | .forget => t.claimed ⊆ s.claimed ∧ t.cleared ⊆ s.cleared ∧ t = { s with
      claimed := t.claimed
      cleared := t.cleared }

/-- The steps from no entries on. -/
def machine (ι : Type u) (κ : Type v) : LabeledMachine (Reclaim ι κ) (ReclaimLabel ι κ) where
  Init s := s = ⟨∅, ∅, ∅, ∅, ∅, ∅, ∅⟩
  Step := Step

/-- Only an entry that is in the table, and that no collector has cleared, has its storage filled. -/
def FillsKept (s : Reclaim ι κ) (label : ReclaimLabel ι κ) : Prop :=
  ∀ entry, label = .fill entry → entry ∈ s.live ∪ s.condemned ∧ entry ∉ s.cleared

/-- The entries that a collector has condemned, works on or has cleared. -/
def dead (s : Reclaim ι κ) : Set ι :=
  s.condemned ∪ s.claimed ∪ s.cleared

/-- What holds in every state: pins are on live entries, and no collector has touched a live entry. -/
structure Sound (s : Reclaim ι κ) : Prop where
  pinned : ∀ {entry holder}, (entry, holder) ∈ s.pins → entry ∈ s.live
  issued : s.live ⊆ s.issued
  dead : ∀ {entry}, entry ∈ s.dead → entry ∈ s.issued ∧ entry ∉ s.live

/-- What also holds while no step fills a storage too late. -/
structure Kept (s : Reclaim ι κ) : Prop where
  stored : s.stored ⊆ s.live ∪ s.condemned
  cleared : ∀ {entry}, entry ∈ s.cleared → entry ∉ s.stored

private theorem dead_fewer {condemned claimed cleared : Set ι} (fewer : condemned ⊆ s.condemned)
    (claims : claimed ⊆ s.claimed) (clears : cleared ⊆ s.cleared) :
    condemned ∪ claimed ∪ cleared ⊆ s.dead :=
  Set.union_subset_union (Set.union_subset_union fewer claims) clears

theorem Sound.step (sound : s.Sound) (taken : Step s label t) : t.Sound := by
  obtain ⟨pinned, issued, dead⟩ := sound
  cases label with
  | create entry holder =>
    obtain ⟨fresh, rfl⟩ := taken
    refine ⟨?_, Set.insert_subset_insert issued, ?_⟩
    · rintro other reader (same | before)
      · exact .inl (congrArg Prod.fst same)
      · exact .inr (pinned before)
    · intro other member
      obtain ⟨known, apart⟩ := dead member
      refine ⟨.inr known, ?_⟩
      rintro (rfl | live)
      · exact fresh known
      · exact apart live
  | pin entry holder =>
    obtain ⟨live, rfl⟩ := taken
    refine ⟨?_, issued, dead⟩
    rintro other reader (same | before)
    · obtain rfl : other = entry := congrArg Prod.fst same
      exact live
    · exact pinned before
  | unpin entry holder =>
    obtain rfl := taken
    exact ⟨fun member => pinned member.1, issued, dead⟩
  | fill entry =>
    obtain rfl := taken
    exact ⟨pinned, issued, dead⟩
  | condemn entry =>
    obtain ⟨known, free, rfl⟩ := taken
    refine ⟨?_, fun other member => issued member.1, ?_⟩
    · intro other reader member
      refine ⟨pinned member, ?_⟩
      rintro rfl
      exact free reader member
    · intro other member
      by_cases same : other = entry
      · rw [same]
        exact ⟨known, fun live => live.2 rfl⟩
      · have before : other ∈ s.dead := by
          simpa [Reclaim.dead, same] using member
        exact ⟨(dead before).1, fun live => (dead before).2 live.1⟩
  | clear entry =>
    obtain ⟨member, rfl⟩ := taken
    refine ⟨pinned, issued, ?_⟩
    rintro other (touched | rfl | before)
    · exact dead (.inl touched)
    · exact dead (.inl (.inr member))
    · exact dead (.inr before)
  | erase entry =>
    obtain ⟨_, claims, clears, same⟩ := taken
    rw [same]
    exact ⟨pinned, issued, fun member => dead (dead_fewer (fun _ inside => inside.1) claims clears member)⟩
  | forget =>
    obtain ⟨claims, clears, same⟩ := taken
    rw [same]
    exact ⟨pinned, issued, fun member => dead (dead_fewer subset_rfl claims clears member)⟩

/-- A pinned entry may have its storage filled. -/
theorem Sound.fillsKept (sound : s.Sound) {entry : ι} {holder : κ} (pin : (entry, holder) ∈ s.pins) :
    FillsKept s (.fill entry) := by
  rintro other ⟨⟩
  have live := sound.pinned pin
  exact ⟨.inl live, fun cleared => (sound.dead (.inr cleared)).2 live⟩

theorem Kept.step (kept : s.Kept) (taken : Step s label t) (ok : FillsKept s label) : t.Kept := by
  obtain ⟨stored, cleared⟩ := kept
  cases label with
  | create entry holder =>
    obtain ⟨_, rfl⟩ := taken
    exact ⟨stored.trans (Set.union_subset_union_left _ (Set.subset_insert ..)), cleared⟩
  | pin entry holder =>
    obtain ⟨_, rfl⟩ := taken
    exact ⟨stored, cleared⟩
  | unpin entry holder =>
    obtain rfl := taken
    exact ⟨stored, cleared⟩
  | fill entry =>
    obtain rfl := taken
    obtain ⟨known, uncleared⟩ := ok entry rfl
    refine ⟨Set.insert_subset known stored, ?_⟩
    rintro other member (rfl | before)
    · exact uncleared member
    · exact cleared member before
  | condemn entry =>
    obtain ⟨_, _, rfl⟩ := taken
    refine ⟨fun other member => ?_, cleared⟩
    by_cases same : other = entry
    · exact .inr (.inl same)
    · rcases stored member with live | condemned
      · exact .inl ⟨live, same⟩
      · exact .inr (.inr condemned)
  | clear entry =>
    obtain ⟨_, rfl⟩ := taken
    refine ⟨fun other member => stored member.1, ?_⟩
    rintro other (rfl | before) member
    · exact member.2 rfl
    · exact cleared before member.1
  | erase entry =>
    obtain ⟨gone, _, clears, same⟩ := taken
    rw [same]
    refine ⟨fun other member => ?_, fun member => cleared (clears member)⟩
    rcases stored member with live | condemned
    · exact .inl live
    · refine .inr ⟨condemned, ?_⟩
      rintro rfl
      exact cleared gone member
  | forget =>
    obtain ⟨_, clears, same⟩ := taken
    rw [same]
    exact ⟨stored, fun member => cleared (clears member)⟩

/-- What a step does to the live entries: it adds only a new one and takes only one without pins. -/
theorem Step.live (taken : Step s label t) :
    (∀ {entry}, entry ∈ t.live → entry ∈ s.live ∨ entry ∉ s.issued) ∧
    (∀ {entry}, entry ∈ s.live → entry ∈ t.live ∨ ∀ holder, (entry, holder) ∉ s.pins) ∧
    s.issued ⊆ t.issued := by
  cases label with
  | create entry holder =>
    obtain ⟨fresh, rfl⟩ := taken
    refine ⟨?_, fun before => .inl (.inr before), Set.subset_insert ..⟩
    rintro other (rfl | before)
    · exact .inr fresh
    · exact .inl before
  | condemn entry =>
    obtain ⟨_, free, rfl⟩ := taken
    refine ⟨fun after => .inl after.1, fun {other} before => ?_, subset_rfl⟩
    by_cases same : other = entry
    · rw [same]
      exact .inr free
    · exact .inl ⟨before, same⟩
  | unpin entry holder =>
    obtain rfl := taken
    exact ⟨.inl, .inl, subset_rfl⟩
  | pin entry holder =>
    obtain ⟨_, rfl⟩ := taken
    exact ⟨.inl, .inl, subset_rfl⟩
  | fill entry =>
    obtain rfl := taken
    exact ⟨.inl, .inl, subset_rfl⟩
  | clear entry =>
    obtain ⟨_, rfl⟩ := taken
    exact ⟨.inl, .inl, subset_rfl⟩
  | erase entry =>
    obtain ⟨_, _, _, same⟩ := taken
    rw [same]
    exact ⟨.inl, .inl, subset_rfl⟩
  | forget =>
    obtain ⟨_, _, same⟩ := taken
    rw [same]
    exact ⟨.inl, .inl, subset_rfl⟩

/-- A step keeps the entry of every pin live, the removal of that pin included. -/
theorem Sound.live (sound : s.Sound) (taken : Step s label t) {entry : ι} {holder : κ}
    (pin : (entry, holder) ∈ s.pins) : entry ∈ t.live := by
  rcases taken.live.2.1 (sound.pinned pin) with after | free
  · exact after
  · exact absurd pin (free holder)

/-- An entry that is not live any more never is again. -/
theorem Step.closed (taken : Step s label t) {entry : ι} (closed : entry ∈ s.issued ∧ entry ∉ s.live) :
    entry ∈ t.issued ∧ entry ∉ t.live := by
  obtain ⟨adds, _, issued⟩ := taken.live
  refine ⟨issued closed.1, fun after => ?_⟩
  rcases adds after with before | fresh
  · exact closed.2 before
  · exact fresh closed.1

/-- A step clears the storage of no pinned entry. -/
theorem Sound.stays (sound : s.Sound) (taken : Step s label t) {entry : ι} {holder : κ}
    (pin : (entry, holder) ∈ s.pins) (stored : entry ∈ s.stored) : entry ∈ t.stored := by
  cases label with
  | fill other =>
    obtain rfl := taken
    exact .inr stored
  | clear other =>
    obtain ⟨claimed, rfl⟩ := taken
    refine ⟨stored, ?_⟩
    rintro rfl
    exact (sound.dead (.inl (.inr claimed))).2 (sound.pinned pin)
  | unpin other reader =>
    obtain rfl := taken
    exact stored
  | create other reader | pin other reader =>
    obtain ⟨_, rfl⟩ := taken
    exact stored
  | condemn other =>
    obtain ⟨_, _, rfl⟩ := taken
    exact stored
  | erase other =>
    obtain ⟨_, _, _, same⟩ := taken
    rw [same]
    exact stored
  | forget =>
    obtain ⟨_, _, same⟩ := taken
    rw [same]
    exact stored

theorem sound_of_reachable (reached : Reachable (machine ι κ) s) : s.Sound := by
  refine reached.induction ?_ fun _ (taken : Step ..) held => held.step taken
  rintro _ rfl
  constructor <;> simp [Reclaim.dead]

theorem kept_of_reachable (reached : Reachable ((machine ι κ).restrict FillsKept) s) : s.Kept := by
  refine reached.induction ?_ fun _ (taken : Step .. ∧ _) held => held.step taken.1 taken.2
  rintro _ rfl
  constructor <;> simp

end Reclaim

end Machine
