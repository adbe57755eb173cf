import Mathlib.Algebra.BigOperators.Group.List.Basic
import Mathlib.Algebra.Order.Ring.Nat
import LatexRenderer.Model.Mcp.InlineBytes

/-! # No request waits that would fit

The bytes in flight are those of the grants that are not released, and every request is granted once or waits. What waits
does not fit after any step, so nothing waits when nothing is in flight.
-/

namespace LatexRenderer

open Machine

namespace InlineBytes

variable {s t : InlineBytes} {request : InlineRequest}

/-- The books of the service: its bytes are those of the outstanding grants, and every request so far was granted or
waits. -/
structure Accounted (s : InlineBytes) : Prop where
  total : s.inlineArtifactBytesInFlight = (s.outstanding.map InlineRequest.bytes).sum
  bounded : s.inlineArtifactBytesInFlight ≤ maxInlineArtifactBytesInFlight
  small : ∀ waiter ∈ s.inlineArtifactWaiters, waiter.bytes ≤ maxInlineArtifactBytesInFlight
  requests : ((s.granted ++ s.inlineArtifactWaiters).map InlineRequest.id).Perm (List.range s.requested)

/-- No waiter fits. -/
def Settled (s : InlineBytes) : Prop := ∀ waiter ∈ s.inlineArtifactWaiters, s.fits waiter = false

theorem accounted_start : Accounted .start where
  total := rfl
  bounded := Nat.zero_le _
  small := by simp [start]
  requests := List.Perm.refl _

theorem Accounted.grant {before after : List InlineRequest} (books : s.Accounted)
    (queue : s.inlineArtifactWaiters = before ++ request :: after) (fits : s.fits request = true) :
    Accounted (InlineBytes.grant request { s with inlineArtifactWaiters := before ++ after }) where
  total := by
    show s.inlineArtifactBytesInFlight + request.bytes = ((s.outstanding ++ [request]).map InlineRequest.bytes).sum
    rw [List.map_append, List.sum_append, books.total]
    simp
  bounded := of_decide_eq_true fits
  small waiter member := by
    refine books.small waiter ?_
    rw [queue]
    exact List.mem_append.mpr ((List.mem_append.mp member).imp_right (List.mem_cons_of_mem _))
  requests := by
    refine List.Perm.trans (List.Perm.map _ ?_) (queue ▸ books.requests)
    show (s.granted ++ [request] ++ (before ++ after)).Perm (s.granted ++ (before ++ request :: after))
    rw [List.append_assoc]
    refine List.Perm.append_left _ ?_
    show (request :: (before ++ after)).Perm _
    exact List.perm_middle.symm

/-- What waits does not fit after the loop, and the books are kept. -/
theorem Accounted.handOver {turns : Nat} (books : s.Accounted) (enough : s.inlineArtifactWaiters.length ≤ turns) :
    (InlineBytes.handOver turns s).Accounted ∧ (InlineBytes.handOver turns s).Settled := by
  induction turns generalizing s with
  | zero =>
    have empty : s.inlineArtifactWaiters = [] := List.length_eq_zero_iff.mp (Nat.le_zero.mp enough)
    refine ⟨books, fun waiter member => ?_⟩
    change waiter ∈ s.inlineArtifactWaiters at member
    rw [empty] at member
    cases member
  | succ turns ih =>
    rw [InlineBytes.handOver]
    cases found : s.inlineArtifactWaiters.find? s.fits with
    | none =>
      refine ⟨books, fun waiter member => ?_⟩
      exact Bool.eq_false_iff.mpr (List.find?_eq_none.mp found waiter member)
    | some waiter =>
      obtain ⟨fits, before, after, queue, others⟩ := List.find?_eq_some_iff_append.mp found
      have shorter : s.inlineArtifactWaiters.eraseP s.fits = before ++ after := by
        rw [queue, List.eraseP_append_right, List.eraseP_cons_of_pos fits]
        intro other member
        simpa using others other member
      show (InlineBytes.handOver turns (InlineBytes.grant waiter
        { s with inlineArtifactWaiters := s.inlineArtifactWaiters.eraseP s.fits })).Accounted ∧ _
      rw [shorter]
      refine ih (books.grant queue fits) ?_
      show (before ++ after).length ≤ turns
      rw [queue, List.length_append, List.length_cons] at enough
      rw [List.length_append]
      omega

theorem Accounted.acquire {bytes : Nat} (books : s.Accounted) (settled : s.Settled)
    (small : bytes ≤ maxInlineArtifactBytesInFlight) :
    (s.acquireInlineArtifactBytes bytes).Accounted ∧ (s.acquireInlineArtifactBytes bytes).Settled := by
  unfold acquireInlineArtifactBytes enter
  have counted : ∀ front back : List InlineRequest, front ++ back = s.granted ++ s.inlineArtifactWaiters →
      ((front ++ (⟨s.requested, bytes⟩ : InlineRequest) :: back).map InlineRequest.id).Perm (List.range (s.requested + 1)) := by
    intro front back same
    rw [List.range_succ]
    refine (List.Perm.map _ List.perm_middle).trans ?_
    rw [List.map_cons, same]
    exact (List.Perm.cons _ books.requests).trans (List.perm_append_singleton _ _).symm
  split
  · next fits =>
    constructor
    · constructor
      · show s.inlineArtifactBytesInFlight + bytes =
          ((s.outstanding ++ [(⟨s.requested, bytes⟩ : InlineRequest)]).map InlineRequest.bytes).sum
        rw [List.map_append, List.sum_append, books.total]
        simp
      · exact of_decide_eq_true fits
      · exact books.small
      · show ((s.granted ++ [(⟨s.requested, bytes⟩ : InlineRequest)] ++ s.inlineArtifactWaiters).map
          InlineRequest.id).Perm _
        rw [List.append_assoc]
        exact counted _ _ rfl
    · intro waiter member
      have before := of_decide_eq_false (settled waiter member)
      refine decide_eq_false fun after => before ?_
      exact Nat.le_trans (Nat.add_le_add_right (Nat.le_add_right _ _) _) after
  · next large =>
    constructor
    · constructor
      · exact books.total
      · exact books.bounded
      · intro waiter member
        rcases List.mem_append.mp member with earlier | new
        · exact books.small waiter earlier
        · rw [List.mem_singleton.mp new]
          exact small
      · show ((s.granted ++ (s.inlineArtifactWaiters ++ [(⟨s.requested, bytes⟩ : InlineRequest)])).map
          InlineRequest.id).Perm _
        rw [← List.append_assoc]
        exact counted _ [] (List.append_nil _)
    · intro waiter member
      rcases List.mem_append.mp member with earlier | new
      · exact settled waiter earlier
      · rw [List.mem_singleton.mp new]
        exact Bool.eq_false_iff.mpr large

theorem Accounted.release (books : s.Accounted) (own : request ∈ s.outstanding) :
    (s.releaseInlineArtifactBytes request).Accounted ∧ (s.releaseInlineArtifactBytes request).Settled := by
  refine Accounted.handOver ?_ (Nat.le_refl _)
  constructor
  · have total := List.sum_map_erase InlineRequest.bytes own
    show s.inlineArtifactBytesInFlight - request.bytes = ((s.outstanding.erase request).map InlineRequest.bytes).sum
    rw [books.total]
    omega
  · exact Nat.le_trans (Nat.sub_le _ _) books.bounded
  · exact books.small
  · exact books.requests

/-- What holds of the service after every step. -/
structure Sound (s : InlineBytes) : Prop where
  total : s.inlineArtifactBytesInFlight = (s.outstanding.map InlineRequest.bytes).sum
  bounded : s.inlineArtifactBytesInFlight ≤ maxInlineArtifactBytesInFlight
  once : (s.granted.map InlineRequest.id).Nodup
  waiting : ∀ id < s.requested, id ∉ s.granted.map InlineRequest.id → id ∈ s.inlineArtifactWaiters.map InlineRequest.id
  served : ∀ waiter ∈ s.inlineArtifactWaiters,
    maxInlineArtifactBytesInFlight < (s.outstanding.map InlineRequest.bytes).sum + waiter.bytes
  idle : s.outstanding = [] → s.inlineArtifactWaiters = []

theorem Accounted.sound (books : s.Accounted) (settled : s.Settled) : s.Sound := by
  have served : ∀ waiter ∈ s.inlineArtifactWaiters,
      maxInlineArtifactBytesInFlight < (s.outstanding.map InlineRequest.bytes).sum + waiter.bytes := by
    intro waiter member
    have large := of_decide_eq_false (settled waiter member)
    rw [books.total] at large
    omega
  have ids := books.requests
  rw [List.map_append] at ids
  constructor
  · exact books.total
  · exact books.bounded
  · exact (List.nodup_append.mp (ids.nodup_iff.mpr List.nodup_range)).1
  · intro id small absent
    have there := ids.mem_iff.mpr (List.mem_range.mpr small)
    exact (List.mem_append.mp there).resolve_left absent
  · exact served
  · intro none
    refine List.eq_nil_iff_forall_not_mem.mpr fun waiter member => ?_
    have large := served waiter member
    have small := books.small waiter member
    rw [none, List.map_nil, List.sum_nil] at large
    omega

end InlineBytes

/-- After every sequence of requests and releases: the bytes in flight are those of the outstanding grants and within the
limit, no request is granted twice, none waits that fits, and nothing waits when nothing is outstanding. -/
theorem inlineBytes_sound {s : InlineBytes} (reached : Reachable inlineBytesMachine s) : s.Sound := by
  have both : s.Accounted ∧ s.Settled := by
    refine reached.induction (P := fun s => s.Accounted ∧ s.Settled) ?_ ?_
    · rintro s rfl
      exact ⟨InlineBytes.accounted_start, by simp [InlineBytes.Settled, InlineBytes.start]⟩
    · rintro s event t - taken ⟨books, settled⟩
      cases event with
      | acquire bytes =>
        obtain ⟨small, same⟩ := Option.ite_none_right_eq_some.mp taken
        cases same
        exact books.acquire settled small
      | release request =>
        obtain ⟨own, same⟩ := Option.ite_none_right_eq_some.mp taken
        cases same
        exact books.release own
  exact both.1.sound both.2

/-- Forty MiB twice: the second request waits for the first one, a small one goes past it. -/
theorem inlineBytes_sound_queued : ∃ s : InlineBytes, s.Sound ∧ s.granted.map InlineRequest.id = [0, 2, 1] ∧
    s.outstanding.map InlineRequest.id = [2, 1] := by
  have passes : ((replay? InlineBytes.step .start [.acquire 41943040, .acquire 41943040, .acquire 1024,
      .release ⟨0, 41943040⟩]).any fun s => s.granted.map InlineRequest.id = [0, 2, 1] &&
        s.outstanding.map InlineRequest.id = [2, 1]) = true := by decide
  obtain ⟨s, run, passed⟩ := exists_run_of_replay? passes
  rw [Bool.and_eq_true, decide_eq_true_eq, decide_eq_true_eq] at passed
  exact ⟨s, inlineBytes_sound ⟨.start, _, rfl, run⟩, passed⟩

end LatexRenderer
