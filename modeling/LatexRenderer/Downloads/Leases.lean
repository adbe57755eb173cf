import LatexRenderer.Model.Downloads

/-! # The lease table and the processes that write it

What the lease rows and the clock readings of their holders have to do with each other. A reading is never
ahead of the clock and never behind the writing of the row it will renew, so a renewal never moves an
expiry back; and a lease that is gone does not come back under its id.
-/

namespace LatexRenderer

open Machine

/-- The leases, their holders and the clock. -/
structure LeasesSound (leases : List DownloadLeaseRow) (holders : List LeaseHolder) (clock : Timestamp) :
    Prop where
  leaseIds : (leases.map (·.id)).Nodup
  holderIds : (holders.map (·.leaseId)).Nodup
  held : ∀ lease ∈ leases, ∃ holder ∈ holders, holder.leaseId = lease.id
  ahead : ∀ lease ∈ leases, lease.expiresAt ≤ clock + artifactDownloadLeaseMs
  readings : ∀ holder ∈ holders, ∀ timestamp ∈ holder.reading, timestamp ≤ clock ∧
    ∀ lease ∈ leases, lease.id = holder.leaseId →
      lease.expiresAt ≤ timestamp + artifactDownloadLeaseMs

/-- Rows after a step that creates no lease: each is an earlier one, expiring no sooner. -/
def LeasesKept (before after : List DownloadLeaseRow) : Prop :=
  ∀ lease ∈ after, ∃ old ∈ before, old.id = lease.id ∧ old.jobId = lease.jobId ∧
    old.expiresAt ≤ lease.expiresAt

theorem LeasesKept.of_subset {before after : List DownloadLeaseRow} (fewer : after ⊆ before) :
    LeasesKept before after :=
  fun lease member => ⟨lease, fewer member, rfl, rfl, Nat.le_refl _⟩

variable {leases : List DownloadLeaseRow} {holders : List LeaseHolder} {clock : Timestamp}

namespace LeasesSound

theorem tick (sound : LeasesSound leases holders clock) (passed : Duration) :
    LeasesSound leases holders (clock + passed) := by
  refine { sound with ahead := fun lease member => ?_, readings := fun holder member timestamp read => ?_ }
  · exact Nat.le_trans (sound.ahead lease member) (Nat.add_le_add_right (Nat.le_add_right ..) _)
  · obtain ⟨past, bound⟩ := sound.readings holder member timestamp read
    exact ⟨Nat.le_trans past (Nat.le_add_right ..), bound⟩

theorem fewer (sound : LeasesSound leases holders clock) {after : List DownloadLeaseRow}
    (rows : List.Sublist after leases) : LeasesSound after holders clock where
  leaseIds := sound.leaseIds.sublist (rows.map _)
  holderIds := sound.holderIds
  held lease member := sound.held lease (rows.subset member)
  ahead lease member := sound.ahead lease (rows.subset member)
  readings holder member timestamp read :=
    ⟨(sound.readings holder member timestamp read).1,
      fun lease within => (sound.readings holder member timestamp read).2 lease (rows.subset within)⟩

theorem create (sound : LeasesSound leases holders clock) {lease : DownloadLeaseRow}
    (fresh : ∀ holder ∈ holders, holder.leaseId ≠ lease.id)
    (expires : lease.expiresAt = clock + artifactDownloadLeaseMs) :
    LeasesSound (leases ++ [lease]) (holders ++ [{ leaseId := lease.id }]) clock := by
  have unheld : ∀ row ∈ leases, row.id ≠ lease.id := by
    intro row member same
    obtain ⟨holder, within, named⟩ := sound.held row member
    exact fresh holder within (named.trans same)
  refine ⟨nodup_map_append sound.leaseIds unheld, nodup_map_append sound.holderIds fresh, ?_, ?_, ?_⟩
  · intro row member
    rcases List.mem_append.mp member with older | new
    · obtain ⟨holder, within, named⟩ := sound.held row older
      exact ⟨holder, by simp [within], named⟩
    · exact ⟨{ leaseId := lease.id }, by simp, by rw [List.mem_singleton.mp new]⟩
  · intro row member
    rcases List.mem_append.mp member with older | new
    · exact sound.ahead row older
    · rw [List.mem_singleton.mp new, expires]
  · intro holder member timestamp read
    rcases List.mem_append.mp member with older | new
    · obtain ⟨past, bound⟩ := sound.readings holder older timestamp read
      refine ⟨past, fun row within same => ?_⟩
      rcases List.mem_append.mp within with known | added
      · exact bound row known same
      · rw [List.mem_singleton.mp added] at same
        exact absurd same.symm (fresh holder older)
    · rw [List.mem_singleton.mp new] at read
      cases read

/-- A statement on a holder, whose reading is then the clock or none. -/
theorem updateHolder (sound : LeasesSound leases holders clock) {leaseId : String}
    {change : LeaseHolder → Option LeaseHolder} {after : List LeaseHolder}
    (updated : update? (·.leaseId == leaseId) change holders = some after)
    (keeps : ∀ {holder new}, change holder = some new →
      new.leaseId = holder.leaseId ∧ (new.reading = none ∨ new.reading = some clock)) :
    LeasesSound leases after clock := by
  have ids : after.map (·.leaseId) = holders.map (·.leaseId) :=
    update?_map updated fun changed => (keeps changed).1
  refine ⟨sound.leaseIds, by rw [ids]; exact sound.holderIds, fun lease member => ?_, sound.ahead, ?_⟩
  · obtain ⟨holder, within, named⟩ := sound.held lease member
    have present : lease.id ∈ after.map (·.leaseId) := by
      rw [ids, ← named]
      exact List.mem_map_of_mem within
    obtain ⟨new, later, same⟩ := List.mem_map.mp present
    exact ⟨new, later, same⟩
  · refine update?_forall updated ?_ sound.readings
    intro holder new _ _ changed bound timestamp read
    rcases (keeps changed).2 with none | now
    · rw [none] at read
      cases read
    · rw [now] at read
      obtain rfl := Option.some.inj read
      exact ⟨Nat.le_refl _, fun lease member _ => sound.ahead lease member⟩

/-- A renewal moves the expiry of its row to its own reading, which is no earlier than the last. -/
theorem renew (sound : LeasesSound leases holders clock) {leaseId : String} {holder : LeaseHolder}
    {timestamp : Timestamp} (found : holders.find? (·.leaseId == leaseId) = some holder)
    (read : holder.reading = some timestamp) {after : List DownloadLeaseRow}
    (renewed : update? (·.id == leaseId)
      (·.renewLease timestamp (timestamp + artifactDownloadLeaseMs)) leases = some after) :
    LeasesSound after holders clock ∧ LeasesKept leases after := by
  obtain ⟨row, new, before, keyed, changed, rows⟩ := update?_of_nodup renewed sound.leaseIds
  have named : holder.leaseId = leaseId := beq_iff_eq.mp (List.find?_some found :)
  have placed := List.mem_of_find?_eq_some found
  obtain ⟨past, bound⟩ := sound.readings holder placed timestamp read
  obtain ⟨_, eq⟩ := (Option.ite_none_right_eq_some ..).mp changed
  obtain rfl := Option.some.inj eq
  have later : row.expiresAt ≤ timestamp + artifactDownloadLeaseMs :=
    bound row before (keyed.trans named.symm)
  have ids : after.map (·.id) = leases.map (·.id) := update?_map renewed fun {old new} changed => by
    obtain ⟨_, eq⟩ := (Option.ite_none_right_eq_some ..).mp changed
    rw [← Option.some.inj eq]
  refine ⟨⟨by rw [ids]; exact sound.leaseIds, sound.holderIds, ?_, ?_, ?_⟩, ?_⟩
  · intro lease member
    rcases (rows lease).mp member with rfl | ⟨older, _⟩
    · exact ⟨holder, placed, named.trans keyed.symm⟩
    · exact sound.held lease older
  · intro lease member
    rcases (rows lease).mp member with rfl | ⟨older, _⟩
    · exact Nat.add_le_add_right past _
    · exact sound.ahead lease older
  · intro other within instant taken
    obtain ⟨elapsed, limit⟩ := sound.readings other within instant taken
    refine ⟨elapsed, fun lease member same => ?_⟩
    rcases (rows lease).mp member with rfl | ⟨older, _⟩
    · have same' : other.leaseId = holder.leaseId := same.symm.trans (keyed.trans named.symm)
      obtain rfl := List.inj_on_of_nodup_map sound.holderIds within placed same'
      obtain rfl := Option.some.inj (taken.symm.trans read)
      exact Nat.le_refl _
    · exact limit lease older same
  · intro lease member
    rcases (rows lease).mp member with rfl | ⟨older, _⟩
    · exact ⟨row, before, rfl, rfl, later⟩
    · exact ⟨lease, older, rfl, rfl, Nat.le_refl _⟩

end LeasesSound

end LatexRenderer
