import LatexRenderer.Model.Oidc.LoginFlows

/-! # What holds of logins that are under way

The bound on stored flows is checked without a pause before a flow is stored, and a state value leaves the map with the
first callback that has its cookie.
-/

namespace LatexRenderer

open Machine

section Steps

variable {s t : OidcState}

/-- What every state of a client keeps. -/
structure LoginSound (s : OidcState) : Prop where
  few : s.flows.length ≤ maximumPendingFlows
  flowKeys : (s.flows.map Prod.fst).Nodup
  windowKeys : (s.flowStartWindows.map Prod.fst).Nodup
  counts : ∀ entry ∈ s.flowStartWindows, entry.2.count ≤ maximumFlowStartsPerClient
  flowDeadlines : ∀ entry ∈ s.flows, entry.2.expiresAt ≤ s.activityDeadline
  windowDeadlines : ∀ entry ∈ s.flowStartWindows,
    entry.2.windowStartedAt + flowStartWindowMs ≤ s.activityDeadline
  flowIssued : ∀ entry ∈ s.flows, (entry.1, entry.2.expiresAt) ∈ s.issued
  once : (s.accepted.map (·.state)).Nodup
  gone : ∀ callback ∈ s.accepted, callback.state ∉ s.flows.map Prod.fst
  live : ∀ callback ∈ s.accepted, callback.cookie = callback.state ∧
    ∃ expiresAt, (callback.state, expiresAt) ∈ s.issued ∧ callback.now < expiresAt

theorem loginSound_new : LoginSound OidcState.new := by
  constructor <;> simp [OidcState.new]

theorem LoginSound.prune (sound : LoginSound s) (pruned : Int) : LoginSound { s with flows := pruneFlows pruned s.flows } where
  few := (List.length_filter_le _ _).trans sound.few
  flowKeys := sound.flowKeys.sublist (List.filter_sublist.map _)
  windowKeys := sound.windowKeys
  counts := sound.counts
  flowDeadlines entry member := sound.flowDeadlines entry (List.mem_filter.mp member).1
  windowDeadlines := sound.windowDeadlines
  flowIssued entry member := sound.flowIssued entry (List.mem_filter.mp member).1
  once := sound.once
  gone callback member there := sound.gone callback member ((List.filter_sublist.map Prod.fst).subset there)
  live := sound.live

theorem makeRoom_sublist (windows : List (Text × OidcFlowStartWindow)) : (makeRoom windows).Sublist windows := by
  unfold makeRoom
  split
  · exact List.tail_sublist _
  · exact List.Sublist.refl _

/-- Other windows are sound when they are still counted and covered. -/
theorem LoginSound.windows (sound : LoginSound s) {windows : List (Text × OidcFlowStartWindow)} {deadline : Int}
    (later : s.activityDeadline ≤ deadline) (keys : (windows.map Prod.fst).Nodup)
    (counts : ∀ entry ∈ windows, entry.2.count ≤ maximumFlowStartsPerClient)
    (covered : ∀ entry ∈ windows, entry.2.windowStartedAt + flowStartWindowMs ≤ deadline) :
    LoginSound { s with flowStartWindows := windows, activityDeadline := deadline } where
  few := sound.few
  flowKeys := sound.flowKeys
  windowKeys := keys
  counts := counts
  flowDeadlines entry member := (sound.flowDeadlines entry member).trans later
  windowDeadlines := covered
  flowIssued := sound.flowIssued
  once := sound.once
  gone := sound.gone
  live := sound.live

theorem consumeFlowStart_sound (sound : LoginSound s) (now : Int) (clientAddress : Text) :
    LoginSound (consumeFlowStart now clientAddress s).1 := by
  have kept : (pruneWindows now s.flowStartWindows).Sublist s.flowStartWindows := List.filter_sublist
  have keys := sound.windowKeys.sublist (kept.map Prod.fst)
  unfold consumeFlowStart
  dsimp only
  split
  · next window found =>
    have there := kept.subset (mapGet?_mem found)
    split
    · exact sound.windows (Int.le_refl _) keys (fun entry member => sound.counts entry (kept.subset member))
        fun entry member => sound.windowDeadlines entry (kept.subset member)
    · next below =>
      refine sound.windows (Int.le_refl _) (nodup_mapSet keys) (fun entry member => ?_) fun entry member => ?_
      · rcases mem_mapSet member with rfl | ⟨old, _⟩
        · exact Nat.lt_of_not_le below
        · exact sound.counts entry (kept.subset old)
      · rcases mem_mapSet member with rfl | ⟨old, _⟩
        · have covered := sound.windowDeadlines _ there
          exact covered
        · exact sound.windowDeadlines entry (kept.subset old)
  · have room := (makeRoom_sublist (pruneWindows now s.flowStartWindows)).trans kept
    refine sound.windows (Int.le_max_left _ _) (nodup_mapSet (sound.windowKeys.sublist (room.map Prod.fst)))
      (fun entry member => ?_) fun entry member => ?_
    · rcases mem_mapSet member with rfl | ⟨old, _⟩
      · exact (by decide : 1 ≤ maximumFlowStartsPerClient)
      · exact sound.counts entry (room.subset old)
    · rcases mem_mapSet member with rfl | ⟨old, _⟩
      · exact Int.le_max_right _ _
      · exact (sound.windowDeadlines entry (room.subset old)).trans (Int.le_max_left _ _)

theorem LoginSound.remember (sound : LoginSound s) (waiting starts : List Text) :
    LoginSound { s with waiting, starts } :=
  ⟨sound.few, sound.flowKeys, sound.windowKeys, sound.counts, sound.flowDeadlines, sound.windowDeadlines,
    sound.flowIssued, sound.once, sound.gone, sound.live⟩

theorem beginFlow_sound (sound : LoginSound s) (pruned started : Int) (returnTo clientAddress : Text) :
    LoginSound (beginFlow pruned started returnTo clientAddress s) := by
  unfold beginFlow
  dsimp only
  split
  · exact sound.prune pruned
  · have counted := consumeFlowStart_sound (sound.prune pruned) started clientAddress
    split
    · exact counted.remember _ _
    · exact counted

theorem storeFlow_sound (sound : LoginSound s) {returnTo : Text} {pruned now : Int} {secrets : FlowSecrets}
    (fresh : secrets.state ∉ s.issued.map Prod.fst) : LoginSound (storeFlow returnTo pruned now secrets s) := by
  have waits := (sound.prune pruned).remember (s.waiting.erase returnTo) s.starts
  unfold storeFlow
  dsimp only
  split
  · exact waits
  · next room =>
    have old : ∀ entry ∈ pruneFlows pruned s.flows, entry ∈ s.flows := fun entry member => (List.mem_filter.mp member).1
    refine ⟨?_, nodup_mapSet waits.flowKeys, waits.windowKeys, waits.counts, fun entry member => ?_,
      fun entry member => (waits.windowDeadlines entry member).trans (Int.le_max_left _ _), fun entry member => ?_,
      waits.once, fun callback member there => ?_, fun callback member => ?_⟩
    · exact length_mapSet_le.trans (by omega)
    · rcases mem_mapSet member with rfl | ⟨before, _⟩
      · exact Int.le_max_right _ _
      · exact (sound.flowDeadlines entry (old entry before)).trans (Int.le_max_left _ _)
    · rcases mem_mapSet member with rfl | ⟨before, _⟩
      · exact List.mem_cons_self
      · exact List.mem_cons_of_mem _ (sound.flowIssued entry (old entry before))
    · obtain ⟨_, expiresAt, issued, _⟩ := sound.live callback member
      obtain ⟨entry, listed, same⟩ := List.mem_map.mp there
      rcases mem_mapSet listed with rfl | ⟨before, _⟩
      · exact fresh (List.mem_map.mpr ⟨_, issued, same.symm⟩)
      · exact sound.gone callback member (List.mem_map.mpr ⟨entry, old entry before, same⟩)
    · obtain ⟨cookie, expiresAt, issued, before⟩ := sound.live callback member
      exact ⟨cookie, expiresAt, List.mem_cons_of_mem _ issued, before⟩

theorem takeFlow_sound (sound : LoginSound s) (now : Int) (state stateCookie : Text) :
    LoginSound (takeFlow now state stateCookie s) := by
  have shorter : (mapDelete state s.flows).Sublist s.flows := List.filter_sublist
  have taken : LoginSound { s with flows := mapDelete state s.flows } :=
    ⟨shorter.length_le.trans sound.few, sound.flowKeys.sublist (shorter.map _), sound.windowKeys, sound.counts,
      fun entry member => sound.flowDeadlines entry (shorter.subset member), sound.windowDeadlines,
      fun entry member => sound.flowIssued entry (shorter.subset member), sound.once,
      fun callback member there => sound.gone callback member ((shorter.map Prod.fst).subset there), sound.live⟩
  unfold takeFlow
  dsimp only
  split
  · next matching =>
    split
    · next flow found =>
      split
      · exact taken
      · next early =>
        have there := mapGet?_mem found
        have unknown : ∀ callback ∈ s.accepted, callback.state ≠ state := fun callback member same =>
          sound.gone callback member (same ▸ List.mem_map_of_mem there)
        refine ⟨taken.few, taken.flowKeys, taken.windowKeys, taken.counts, taken.flowDeadlines, taken.windowDeadlines,
          taken.flowIssued, List.nodup_cons.mpr ⟨fun again => ?_, sound.once⟩, fun callback member => ?_,
          fun callback member => ?_⟩
        · obtain ⟨callback, member, same⟩ := List.mem_map.mp again
          exact unknown callback member same
        · rcases List.mem_cons.mp member with rfl | old
          · intro again
            obtain ⟨entry, listed, same⟩ := List.mem_map.mp again
            exact (mem_mapDelete.mp listed).2 same
          · exact taken.gone callback old
        · rcases List.mem_cons.mp member with rfl | old
          · exact ⟨matching.1.symm, flow.expiresAt, sound.flowIssued _ there, Int.lt_of_not_ge early⟩
          · exact sound.live callback old
    · exact taken
  · exact sound

theorem oidcStep_sound {event : OidcEvent} (stepped : oidcStep s event = some t) (sound : LoginSound s) : LoginSound t := by
  cases event with
  | begin pruned started returnTo clientAddress =>
    cases stepped
    exact beginFlow_sound sound pruned started returnTo clientAddress
  | metadata returnTo pruned now secrets =>
    rw [oidcStep] at stepped
    split at stepped
    · next enabled =>
      cases stepped
      exact storeFlow_sound sound enabled.2
    · cases stepped
  | metadataFailed returnTo =>
    rw [oidcStep] at stepped
    split at stepped
    · cases stepped
      exact sound.remember (s.waiting.erase returnTo) s.starts
    · cases stepped
  | callback now state stateCookie =>
    cases stepped
    exact takeFlow_sound sound now state stateCookie

theorem reachable_sound (reached : Reachable oidcMachine s) : LoginSound s := by
  refine reached.induction (P := LoginSound) ?_ fun {s e t} _ stepped sound => ?_
  case refine_2 => exact oidcStep_sound stepped sound
  rintro s rfl
  exact loginSound_new

end Steps

end LatexRenderer
