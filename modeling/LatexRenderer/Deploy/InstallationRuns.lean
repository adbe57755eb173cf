import LatexRenderer.Deploy.ServerInstallation

/-! # Every run of the installation transaction

`applyInstallation` is run through on the rules of its parts, and the promises of its calls are carried to
every run. The report of an apply is true in every run in which the clean-up of a committed ingress change
does not fail; a run in which it fails is given, and there the report is wrong.
-/

namespace LatexRenderer

open Machine ServerInstallStore

section Apply

variable {s : InstallationHost}

theorem wp_finish_cleanly {value known : InstallationJournal} (coherent : s.Coherent)
    (found : s.journal.entry.visible = some known) (same : known.Same value)
    (uncommitted : known.phase ≠ .committed) :
    (finish (.apply value.kind) value).wp cleanly (fun _ t => t.Coherent ∧ s.Finished value t)
      (fun _ t => t.Coherent ∧ (value.kind = .ingress → t.Open value)) InstallationSite.Meets s := by
  have opened : s.Open value := ⟨known, found, same.symm, uncommitted⟩
  refine Process.wp_bind.mpr ((wp_publish coherent found same).mono ?_
    (fun _ _ failed => ⟨failed.1, fun _ => failed.2 opened⟩) fun _ _ held => held)
  rintro _ t ⟨kept, published⟩
  have general : (commit (.apply value.kind) value).wp cleanly
      (fun _ u => u.Coherent ∧ s.Finished value u) (fun _ u => u.Coherent) InstallationSite.Meets t :=
    wp_commit kept published
  cases kind : value.kind with
  | initial =>
    rw [kind] at general
    exact general.mono (fun _ _ held => held) (fun _ _ failed => ⟨failed, by simp⟩) fun _ _ held => held
  | ingress =>
    rw [kind] at general
    have visible : t.journal.entry.visible = some { value with phase := .ownerReady } := by
      rw [published.journal]
      rfl
    have strict : (commit (.apply .ingress) value).wp cleanly (fun _ _ => True) (fun _ t => t.Open value)
        (fun _ _ => True) t := wp_commit_cleanly visible rfl (by simp)
    exact (general.and strict).mono (fun _ _ held => held.1)
      (fun _ _ failed => ⟨failed.1, fun _ => failed.2⟩) fun _ _ held => held.1

theorem wp_reviewInstallation {request : InstallationRequest} (coherent : s.Coherent) :
    (reviewInstallation request).wp cleanly
      (fun reviewed t => t = s ∧
        reviewed = request.slots.map (fun name => (name, (s.slot name).entry.visible)) ∧
        ∀ value, s.journal.entry.visible = some value → value.phase = .pending)
      (fun _ t => t.Coherent) InstallationSite.Meets s := by
  have here : ∀ _ : InstallationError, s.Coherent := fun _ => coherent
  refine Process.wp_bind.mpr (wp_readJournal coherent here fun pending found => ?_)
  have checked : (requireReviewable pending).wp cleanly
      (fun _ t => t = s ∧ ∀ value, s.journal.entry.visible = some value → value.phase = .pending)
      (fun _ t => t.Coherent) InstallationSite.Meets s := by
    cases pending with
    | none => exact ⟨rfl, fun value seen => by cases found.symm.trans seen⟩
    | some value =>
      refine Process.wp_bind.mpr (Process.wp_require.mpr ⟨fun phase => ?_, fun _ => coherent⟩)
      refine Process.wp_bind.mpr (wp_ownerState coherent here fun owner _ => ?_)
      refine Process.wp_require.mpr ⟨fun _ => ⟨rfl, fun other seen => ?_⟩, fun _ => coherent⟩
      cases found.symm.trans seen
      exact phase
  refine Process.wp_bind.mpr (checked.mono ?_ (fun _ _ held => held) fun _ _ held => held)
  rintro _ s ⟨rfl, pendings⟩
  refine Process.wp_bind.mpr (wp_installationCall coherent trivial here ?_)
  exact (wp_snapshotFiles coherent here).mono (fun reviewed t held => ⟨held.1, held.2, pendings⟩)
    (fun _ _ held => held) fun _ _ held => held

theorem wp_createOwner {value : InstallationJournal} (coherent : s.Coherent)
    (journal : s.journal.entry = .settled (some value)) :
    (createOwner value.id).wp cleanly
      (fun _ t => t.Coherent ∧ t.slot = s.slot ∧ t.journal.entry = s.journal.entry)
      (fun _ t => t.Coherent ∧ t.journal.entry = s.journal.entry) InstallationSite.Meets s := by
  have visible : s.journal.entry.visible = some value := by rw [journal]; rfl
  have stored : s.journal.entry.stored = some value := by rw [journal]; rfl
  have durable : s.Durably value := ⟨value, stored, value.same_refl⟩
  have made : InstallationHost.Coherent { s with owner := some value.id } := by
    refine ⟨coherent.visible, coherent.stored, coherent.settled, fun other seen => ?_, coherent.drawn,
      fun id found => ?_⟩
    · cases visible.symm.trans seen
      exact .inl durable
    · cases found
      exact coherent.drawn value (.inl visible)
  refine Process.wp_act.mpr ⟨⟨coherent, value, visible, durable⟩, fun reply _ => ?_⟩
  cases owner : s.owner with
  | none =>
    cases reply with
    | done answer => simpa [Reply.apply, owner, Process.ofExcept] using made
    | refused => exact ⟨coherent, rfl⟩
    | lost answer => simpa [Reply.apply, owner, Process.ofExcept] using made
  | some creator =>
    cases reply <;> simpa [Reply.apply, owner, Process.ofExcept] using coherent

/-- The `try` block: it ends with the new contents, and an error of an ingress change leaves the
transaction open. -/
theorem wp_provision {value : InstallationJournal} (coherent : s.Coherent)
    (journal : s.journal.entry = .settled (some value)) (pending : value.phase = .pending) :
    (provision value).wp cleanly
      (fun _ t => t.Coherent ∧ t.Holds value.after ∧ t.journal.entry = .settled none)
      (fun _ t => t.Coherent ∧ (value.kind = .ingress → t.Open value)) InstallationSite.Meets s := by
  have opened : ∀ t : InstallationHost, t.journal.entry = s.journal.entry → t.Open value := by
    intro t same
    exact ⟨value, by rw [same, journal]; rfl, value.same_refl, by simp [pending]⟩
  have fails : ∀ (_ : InstallationError) (t : InstallationHost), t.Coherent →
      t.journal.entry = s.journal.entry → t.Coherent ∧ (value.kind = .ingress → t.Open value) :=
    fun _ t kept same => ⟨kept, fun _ => opened t same⟩
  refine Process.wp_bind.mpr ((wp_stopUnits coherent fun error => fails error s coherent rfl).mono ?_
    (fun _ _ held => held) fun _ _ held => held)
  rintro _ s rfl
  have provisioned : (if value.kind = .initial then do
        Process.modify .ensureSecrets fun s => { s with keys := true }
        createOwner value.id
      else pure () : InstallationProcess Unit).wp cleanly
      (fun _ t => t.Coherent ∧ t.slot = s.slot ∧ t.journal.entry = s.journal.entry)
      (fun _ t => t.Coherent ∧ (value.kind = .ingress → t.Open value)) InstallationSite.Meets s := by
    refine Process.wp_ite.mpr ⟨fun _ => ?_, fun _ => ⟨coherent, rfl, rfl⟩⟩
    have keyed : InstallationHost.Coherent { s with keys := true } :=
      coherent.congr (fun _ => rfl) rfl rfl fun _ member => member
    have durable : (InstallationSite.ensureSecrets).Needs s :=
      ⟨value, by rw [journal]; rfl, value, by rw [journal]; rfl, value.same_refl⟩
    refine Process.wp_bind.mpr (Process.wp_modify ⟨coherent, durable⟩ (fun error => fails error s coherent rfl)
      (fun error => fails error _ keyed rfl) ?_)
    have created : (createOwner value.id).wp cleanly
        (fun _ t => t.Coherent ∧ t.slot = s.slot ∧ t.journal.entry = s.journal.entry)
        (fun _ t => t.Coherent ∧ t.journal.entry = s.journal.entry) InstallationSite.Meets
        { s with keys := true } := wp_createOwner keyed journal
    exact created.mono (fun _ _ held => held)
      (fun error t failed => fails error t failed.1 failed.2) fun _ _ held => held
  refine Process.wp_bind.mpr (provisioned.mono ?_ (fun _ _ held => held) fun _ _ held => held)
  rintro _ t ⟨kept, slot, same⟩
  have visible : t.journal.entry.visible = some value := by rw [same, journal]; rfl
  refine Process.wp_bind.mpr (wp_ownerState kept (fun error => fails error t kept same) fun owner _ => ?_)
  refine Process.wp_bind.mpr (Process.wp_require.mpr ⟨fun _ => ?_,
    fun _ => fails .ownerNotCommitted t kept same⟩)
  have admits : t.Admits { value with phase := .ownerReady } := by
    refine kept.admits visible rfl (fun never => by cases never) fun _ name free => ?_
    refine kept.settled name fun other seen => .inl fun concerns => free ?_
    cases visible.symm.trans seen
    exact concerns
  refine Process.wp_bind.mpr ((wp_saveInstallationJournal kept admits).mono ?_ ?_ fun _ _ held => held)
  swap
  · rintro error u ⟨last, _, entry | entry⟩
    · exact fails error u last (entry.trans same)
    · exact ⟨last, fun _ => ⟨_, entry, rfl, by simp⟩⟩
  rintro _ u ⟨last, _, ready, _⟩
  have seen : u.journal.entry.visible = some { value with phase := .ownerReady } := by rw [ready]; rfl
  refine (wp_finish_cleanly last seen ?_ (by simp)).mono ?_ (fun _ _ failed => failed) fun _ _ held => held
  · obtain ⟨kind, id, phase, before, after, units⟩ := value
    cases pending
    rfl
  · exact fun _ v held => ⟨held.1, held.2.holds, held.2.journal⟩

/-- The `catch` block: it never returns, and what it reports is true. -/
theorem wp_provisionFailed {value : InstallationJournal} {Q : Unit → InstallationHost → Prop}
    (coherent : s.Coherent) (opened : value.kind = .ingress → s.Open value) :
    (provisionFailed value).wp cleanly Q
      (fun error t => t.Coherent ∧ (error = .previousConfigurationRestored →
        t.Holds value.before ∧ t.journal.entry = .settled none)) InstallationSite.Meets s := by
  refine Process.wp_ite.mpr ⟨fun ingress => ?_, fun _ => ⟨coherent, by simp⟩⟩
  refine Process.wp_bind.mpr (Process.wp_tryCatch.mpr (Process.wp_bind.mpr ?_))
  refine (wp_recoverInstallation coherent).mono ?_ (fun _ _ failed => ⟨failed, by simp⟩)
    fun _ _ held => held
  rintro recovery t ⟨kept, achieved⟩
  refine ⟨kept, fun _ => ?_⟩
  obtain ⟨known, found, same, uncommitted⟩ := opened ingress
  have kinds : known.kind = .ingress ∧ known.before = value.before := by
    rw [same]
    exact ⟨ingress, rfl⟩
  simp only [InstallationRecovery.Achieved, found] at achieved
  cases recovery with
  | nothing => exact achieved.elim
  | committed => exact absurd achieved.1 (by simp [uncommitted, kinds.1])
  | rolledBack => exact kinds.2 ▸ achieved.2
  | pendingHealth => exact absurd achieved.1 (by simp [kinds.1])
  | awaitingCredentials => exact absurd achieved.1 (by simp [kinds.1])

/-- What an apply that returns leaves. -/
def InstallationHost.Installed (request : InstallationRequest) (t : InstallationHost) : Prop :=
  t.Holds request.files ∧ t.journal.entry = .settled none

/-- The journal of an apply: the pending one, or a new one over the settled snapshot. -/
theorem wp_transactionJournal {request : InstallationRequest} {pending : Option InstallationJournal}
    (coherent : s.Coherent) (found : s.journal.entry.visible = pending)
    (phases : ∀ value, s.journal.entry.visible = some value → value.phase = .pending)
    (same : ∀ value ∈ pending, value.after = request.files ∧ value.before = request.base)
    (snapshot : request.base = request.slots.map fun name => (name, (s.slot name).entry.visible)) :
    (transactionJournal request request.base pending).wp cleanly
      (fun value t => t.Coherent ∧ t.Admits value ∧ value.phase = .pending ∧ value.after = request.files ∧
        value.before = request.base)
      (fun _ t => t.Coherent) InstallationSite.Meets s := by
  cases pending with
  | some value =>
    have phase := phases value found
    refine ⟨coherent, ?_, phase, same value rfl⟩
    refine coherent.admits found value.same_refl (by simp [phase]) fun _ name free => ?_
    refine coherent.settled name fun other seen => .inl ?_
    cases found.symm.trans seen
    exact free
  | none =>
    have quiet : ∀ name, s.Settled name := fun name =>
      coherent.settled name fun value seen => by cases found.symm.trans seen
    refine Process.wp_bind.mpr (Process.wp_act.mpr ⟨⟨coherent, trivial⟩, fun reply _ => ?_⟩)
    have drawn : ∀ id, InstallationHost.Coherent { s with drawn := id :: s.drawn } := fun id =>
      coherent.congr (fun _ => rfl) rfl rfl fun _ member => List.mem_cons_of_mem _ member
    -- the journal that is checked and used under a fresh id
    have used : ∀ id, id ∉ s.drawn → (do
          Process.require (validateInstallationJournal
            ⟨request.kind, id, .pending, request.base, request.files, request.units⟩ = true) .invalidJournal
          pure ⟨request.kind, id, .pending, request.base, request.files, request.units⟩ :
            InstallationProcess InstallationJournal).wp cleanly
          (fun value t => t.Coherent ∧ t.Admits value ∧ value.phase = .pending ∧
            value.after = request.files ∧ value.before = request.base)
          (fun _ t => t.Coherent) InstallationSite.Meets { s with drawn := id :: s.drawn } := by
      intro id fresh
      refine Process.wp_bind.mpr (Process.wp_require.mpr ⟨fun valid => ?_, fun _ => drawn id⟩)
      have known : ∀ name, name ∈ request.base.map Prod.fst →
          (name, (s.slot name).entry.visible) ∈ request.base := by
        intro name member
        rw [snapshot, List.map_map] at member
        obtain ⟨other, listed, rfl⟩ := List.mem_map.mp member
        rw [snapshot]
        exact List.mem_map_of_mem listed
      refine ⟨drawn id, ⟨fun name concerns => ?_, fun name _ => quiet name, .inr ⟨fun entry member => ?_, ?_⟩,
        List.mem_cons_self⟩, rfl, rfl, rfl⟩
      · have listed := known name (InstallationJournal.concerns_of_valid valid concerns).1
        have settled : (s.slot name).entry = .settled (s.slot name).entry.visible := quiet name
        show Durable.Both _ (s.slot name).entry
        rw [settled]
        exact ⟨.inl listed, .inl listed⟩
      · have member : entry ∈ request.base := member
        rw [snapshot] at member
        obtain ⟨name, _, rfl⟩ := List.mem_map.mp member
        exact quiet name
      · exact fun made => fresh (coherent.creator id made)
    cases reply with
    | done answer =>
      by_cases fresh : answer.id ∈ s.drawn
      · simpa [Reply.apply, fresh, Process.ofExcept] using coherent
      · have next := used answer.id fresh
        simpa [Reply.apply, fresh, Process.ofExcept] using next
    | refused => exact coherent
    | lost answer =>
      by_cases fresh : answer.id ∈ s.drawn
      · simpa [Reply.apply, fresh, Process.ofExcept] using coherent
      · simpa [Reply.apply, fresh, Process.ofExcept] using drawn answer.id

/-- The error of a wrong report is raised by the `catch` block alone. -/
abbrev Unreported (error : InstallationError) : Prop := error ≠ .previousConfigurationRestored

theorem raises_installationCall {site : InstallationSite} : (installationCall site).Raises Unreported :=
  .ask (by decide) fun _ _ _ never => by cases never

theorem raises_readJournal : journal.Raises Unreported := by
  refine .bind raises_installationCall fun _ => .ask (by decide) fun _ t error read => ?_
  cases seen : t.journal.entry.visible with
  | none => simp [seen] at read
  | some value =>
    simp only [seen] at read
    split at read
    · split at read
      · cases read
      · cases read
        decide
    · cases read
      decide

theorem raises_snapshotFiles {names : List String} : (snapshotFiles names).Raises Unreported := by
  induction names with
  | nil => trivial
  | cons name rest ih =>
    refine .bind (.ask (by decide) fun _ t error read => ?_) fun _ => .bind ih fun _ => trivial
    split at read
    · cases read
    · cases read
      decide

theorem raises_ownerState {kind : InstallationKind} {id : String} :
    (ownerState kind id).Raises Unreported := by
  refine .ask (by decide) fun _ t error read => ?_
  cases kind with
  | ingress => cases read
  | initial =>
    cases owner : t.owner with
    | none => simp [owner] at read
    | some creator => simp [owner] at read

theorem raises_saveJournal {origin : InstallationOrigin} {value : InstallationJournal} :
    (saveJournal origin value).Raises Unreported := by
  refine .bind raises_installationCall fun _ => .bind (.require (by decide)) fun _ => .bind ?_ fun _ =>
    .bind ?_ fun _ => .replaceFile (by decide) (by decide)
  · refine .ask (by decide) fun _ t error read => ?_
    split at read
    · cases read
    · cases read
      decide
  · refine .bind (.ask (by decide) fun _ _ _ never => by cases never) fun _ => ?_
    split
    · exact .modify (by decide)
    · trivial

theorem raises_prepareInstallation {request : InstallationRequest} :
    (prepareInstallation request).Raises Unreported := by
  refine .bind ?_ fun _ => .bind (.require (by decide)) fun _ => .bind raises_installationCall fun _ =>
    .bind raises_snapshotFiles fun _ => .bind raises_installationCall fun _ =>
    .bind raises_readJournal fun pending => .bind (.require (by decide)) fun _ => .bind ?_ fun _ =>
    .bind raises_saveJournal fun _ => trivial
  · refine .bind raises_readJournal fun pending => .bind ?_ fun _ => .bind raises_installationCall fun _ =>
      raises_snapshotFiles
    cases pending with
    | none => trivial
    | some value =>
      exact .bind (.require (by decide)) fun _ => .bind raises_ownerState fun _ => .require (by decide)
  · cases pending with
    | some value => trivial
    | none =>
      refine .bind (.act (by decide) fun answer t error read => ?_) fun _ =>
        .bind (.require (by decide)) fun _ => trivial
      split at read
      · cases read
        decide
      · cases read

theorem wp_prepareInstallation {request : InstallationRequest} (coherent : s.Coherent) :
    (prepareInstallation request).wp cleanly
      (fun value t => t.Coherent ∧ t.journal.entry = .settled (some value) ∧ value.phase = .pending ∧
        value.after = request.files ∧ value.before = request.base)
      (fun _ t => t.Coherent) InstallationSite.Meets s := by
  have here : ∀ _ : InstallationError, s.Coherent := fun _ => coherent
  refine Process.wp_bind.mpr ((wp_reviewInstallation coherent).mono ?_ (fun _ _ held => held)
    fun _ _ held => held)
  rintro reviewed s ⟨rfl, snapshot, phases⟩
  refine Process.wp_bind.mpr (Process.wp_require.mpr ⟨fun base => ?_, fun _ => coherent⟩)
  refine Process.wp_bind.mpr (wp_installationCall coherent trivial here ?_)
  refine Process.wp_bind.mpr ((wp_snapshotFiles coherent here).mono ?_ (fun _ _ held => held)
    fun _ _ held => held)
  rintro before s ⟨rfl, again⟩
  have same : before = request.base := again.trans (snapshot.symm.trans base)
  subst same
  refine Process.wp_bind.mpr (wp_installationCall coherent trivial here ?_)
  refine Process.wp_bind.mpr (wp_readJournal coherent here fun pending found => ?_)
  refine Process.wp_bind.mpr (Process.wp_require.mpr ⟨fun equal => ?_, fun _ => coherent⟩)
  refine Process.wp_bind.mpr ((wp_transactionJournal coherent found phases equal again).mono ?_
    (fun _ _ held => held) fun _ _ held => held)
  rintro value t ⟨kept, admits, phase, after, old⟩
  refine Process.wp_bind.mpr ((wp_saveInstallationJournal kept admits).mono ?_
    (fun _ _ failed => failed.1) fun _ _ held => held)
  rintro _ u ⟨last, _, journal, _⟩
  exact ⟨last, journal, phase, after, old⟩

theorem wp_applyInstallation {request : InstallationRequest} (coherent : s.Coherent) :
    (applyInstallation request).wp cleanly (fun _ t => t.Coherent ∧ t.Installed request)
      (fun error t => t.Coherent ∧ (error = .previousConfigurationRestored →
        t.Holds request.base ∧ t.journal.entry = .settled none)) InstallationSite.Meets s := by
  have prepared := (wp_prepareInstallation coherent).raises
    (raises_prepareInstallation : (prepareInstallation request).Raises Unreported)
  refine Process.wp_bind.mpr (prepared.mono ?_ (fun error _ failed => ⟨failed.1, fun same =>
    absurd same failed.2⟩) fun _ _ held => held)
  rintro value t ⟨kept, journal, pending, after, before⟩
  refine Process.wp_tryCatch.mpr ((wp_provision kept journal pending).mono ?_ ?_ fun _ _ held => held)
  · rintro _ u ⟨last, holds, gone⟩
    exact ⟨last, after ▸ holds, gone⟩
  · rintro _ u ⟨last, opened⟩
    rw [← before]
    exact wp_provisionFailed last opened

end Apply

end LatexRenderer
