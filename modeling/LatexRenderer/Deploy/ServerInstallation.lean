import LatexRenderer.Deploy.InstallationSteps

/-! # What an installation reports, and what it leaves

The procedures are run through on the rules of their steps. A committed ingress change whose clean-up
fails is the one case in which the report is wrong: the `catch` block recovers, the recovery of a committed
journal goes forward, and the call still reports that the previous configuration was restored.
-/

namespace LatexRenderer

open Machine ServerInstallStore

/-- The transaction is there and not committed. -/
def InstallationHost.Open (s : InstallationHost) (value : InstallationJournal) : Prop :=
  ∃ known, s.journal.entry.visible = some known ∧ value.Same known ∧ known.phase ≠ .committed

/-- The steps of an ingress apply after its journal is committed. -/
def InstallationSite.afterCommit : InstallationSite → Bool
  | .syncJournal (.apply .ingress) .committed => true
  | .finalize (.apply .ingress) => true
  | .inspectCleared (.apply .ingress) => true
  | .unlinkJournal (.apply .ingress) => true
  | .syncCleared (.apply .ingress) => true
  | _ => false

/-- No error is raised once the journal of an ingress apply is committed: not by a rename that has taken
place, and not by a later step. -/
def InstallationSite.cleanFinish (site : InstallationSite)
    (reply : Reply InstallationAnswer) : Bool :=
  match reply with
  | .done _ => true
  | .refused => !site.afterCommit
  | .lost _ =>
    match site with
    | .renameJournal (.apply .ingress) value => value.phase != .committed
    | _ => !site.afterCommit

/-- A valid journal has the same slots before and after. -/
theorem InstallationJournal.concerns_of_valid {value : InstallationJournal}
    (valid : validateInstallationJournal value = true) {name : String} (concerns : value.Concerns name) :
    name ∈ value.before.map Prod.fst ∧ name ∈ value.after.map Prod.fst := by
  simp only [validateInstallationJournal, Bool.and_eq_true, List.isPerm_iff] at valid
  have perm := valid.2
  exact concerns.elim (fun before => ⟨before, perm.mem_iff.mp before⟩)
    fun after => ⟨perm.mem_iff.mpr after, after⟩

section Procedures

variable {s : InstallationHost}
  {allowed : InstallationSite → Reply InstallationAnswer → Prop}

/-- What `publish` leaves: the new contents, under a durable journal that is not committed. -/
structure InstallationHost.Published (s : InstallationHost) (value : InstallationJournal)
    (t : InstallationHost) : Prop where
  journal : t.journal.entry = .settled (some { value with phase := .ownerReady })
  owner : t.owner = s.owner
  settled : ∀ name, t.Settled name
  holds : t.Holds value.after

theorem wp_publish {origin : InstallationOrigin} {value known : InstallationJournal}
    (coherent : s.Coherent) (found : s.journal.entry.visible = some known) (same : known.Same value) :
    (publish origin value).wp allowed (fun _ t => t.Coherent ∧ s.Published value t)
      (fun _ t => t.Coherent ∧ (s.Open value → t.Open value)) InstallationSite.Meets s := by
  have here : ∀ _ : InstallationError, s.Coherent ∧ (s.Open value → s.Open value) :=
    fun _ => ⟨coherent, id⟩
  let ready : InstallationJournal := { value with phase := .ownerReady }
  have alike : value.Same ready := rfl
  refine Process.wp_bind.mpr ((wp_stopUnits coherent here).mono ?_ (fun _ _ held => held)
    fun _ _ held => held)
  rintro _ s rfl
  have admits : s.Admits ready := by
    refine coherent.admits found (same.trans alike) (fun never => by cases never) fun _ name free => ?_
    refine coherent.settled name fun other seen => .inl fun concerns => free ?_
    cases found.symm.trans seen
    exact (same.trans alike).concerns concerns
  refine Process.wp_bind.mpr ((wp_saveInstallationJournal coherent admits).mono ?_ ?_
    fun _ _ held => held)
  swap
  · rintro _ t ⟨held, files, journal⟩
    refine ⟨held, fun ⟨other, seen, still, waits⟩ => ?_⟩
    rcases journal with journal | journal
    · exact ⟨other, journal ▸ seen, still, waits⟩
    · exact ⟨ready, journal, alike, by simp [ready]⟩
  rintro _ t ⟨held, files, journal, valid⟩
  have visible : t.journal.entry.visible = some ready := by rw [journal]; rfl
  have opened : ∀ u : InstallationHost, u.Coherent → t.Frame u →
      u.Coherent ∧ (s.Open value → u.Open value) :=
    fun u kept frame => ⟨kept, fun _ => ⟨ready, frame.journal ▸ visible, alike, by simp [ready]⟩⟩
  refine Process.wp_bind.mpr ((wp_replace held visible (by simp [ready]) (fun entry member => .inr member)
    (.inl ⟨ready, by rw [journal]; rfl, ready.same_refl⟩) fun _ _ entry member => member).mono ?_
    (fun _ u failed => opened u failed.1 failed.2) fun _ _ held => held)
  rintro _ u ⟨kept, frame, written⟩
  have fails : ∀ _ : InstallationError, u.Coherent ∧ (s.Open value → u.Open value) :=
    fun _ => opened u kept frame
  refine Process.wp_bind.mpr (wp_installationCall kept trivial fails ?_)
  refine Process.wp_bind.mpr (wp_installationCall kept trivial fails ?_)
  refine Process.wp_bind.mpr ((Process.wp_each (P := (· = u)) (fun unit _ v same => ?_) rfl).mono ?_
    (fun _ _ held => held) fun _ _ held => held)
  · subst same
    exact wp_installationCall kept trivial fails rfl
  rintro _ u rfl
  refine Process.wp_bind.mpr ((wp_checkInstallationUnits kept fails).mono ?_ (fun _ _ held => held)
    fun _ _ held => held)
  rintro _ u rfl
  refine Process.wp_bind.mpr (wp_installationCall kept trivial fails ?_)
  refine Process.wp_bind.mpr ((wp_checkInstallationUnits kept fails).mono ?_ (fun _ _ held => held)
    fun _ _ held => held)
  rintro _ u rfl
  refine Process.wp_bind.mpr ((wp_snapshotFiles kept fails).mono ?_ (fun _ _ held => held)
    fun _ _ held => held)
  rintro published u ⟨rfl, listed⟩
  refine Process.wp_require.mpr ⟨fun equal => ⟨kept, ?_, ?_, fun name => ?_, ?_⟩, fun _ => fails .host⟩
  · exact frame.journal.trans journal
  · exact frame.owner.trans files.owner
  · by_cases concerns : ready.Concerns name
    · obtain ⟨entry, member, same⟩ := List.mem_map.mp (InstallationJournal.concerns_of_valid valid concerns).2
      exact same ▸ written entry member
    · refine kept.settled name fun other seen => .inl ?_
      rw [frame.journal, journal] at seen
      cases seen
      exact concerns
  · exact holds_of_snapshot written (listed ▸ equal)

/-- What `finish` leaves: the new contents and no journal. -/
structure InstallationHost.Finished (s : InstallationHost) (value : InstallationJournal)
    (t : InstallationHost) : Prop where
  journal : t.journal.entry = .settled none
  owner : t.owner = s.owner
  holds : t.Holds value.after

theorem InstallationHost.SameFiles.settled {t : InstallationHost} (files : s.SameFiles t) {name : String}
    (settled : s.Settled name) : t.Settled name := by
  unfold InstallationHost.Settled
  rw [files.slot]
  exact settled

theorem InstallationHost.SameFiles.holds {t : InstallationHost} (files : s.SameFiles t)
    {entries : SlotContents} (holds : s.Holds entries) : t.Holds entries := by
  intro entry member
  rw [files.slot]
  exact holds entry member

theorem wp_commit {origin : InstallationOrigin} {value : InstallationJournal}
    {t : InstallationHost} (coherent : t.Coherent) (published : s.Published value t) :
    (commit origin value).wp allowed (fun _ u => u.Coherent ∧ s.Finished value u)
      (fun _ u => u.Coherent) InstallationSite.Meets t := by
  have visible : t.journal.entry.visible = some { value with phase := .ownerReady } := by
    rw [published.journal]
    rfl
  have admits : t.Admits { value with phase := .committed } :=
    coherent.admits visible rfl (fun _ => published.settled) fun never => by simp at never
  refine Process.wp_bind.mpr ((wp_saveInstallationJournal coherent admits).mono ?_
    (fun _ _ failed => failed.1) fun _ _ held => held)
  rintro _ u ⟨kept, files, journal, _⟩
  refine Process.wp_bind.mpr (wp_installationCall kept trivial (fun _ => kept) ?_)
  have holds := files.holds published.holds
  refine (wp_clearInstallation kept ?_ fun name => files.settled (published.settled name)).mono ?_
    (fun _ _ held => held) fun _ _ held => held
  · intro other seen
    rw [journal] at seen
    cases seen
    exact .inl ⟨rfl, holds⟩
  · rintro _ v ⟨last, moved, gone⟩
    exact ⟨last, gone, moved.owner.trans (files.owner.trans published.owner), moved.holds holds⟩

theorem wp_finish {origin : InstallationOrigin} {value known : InstallationJournal}
    (coherent : s.Coherent) (found : s.journal.entry.visible = some known) (same : known.Same value) :
    (finish origin value).wp allowed (fun _ t => t.Coherent ∧ s.Finished value t)
      (fun _ t => t.Coherent) InstallationSite.Meets s := by
  refine Process.wp_bind.mpr ((wp_publish coherent found same).mono ?_ (fun _ _ failed => failed.1)
    fun _ _ held => held)
  exact fun _ t held => wp_commit held.1 held.2

/-- The answers to a transaction whose clean-up does not fail. -/
abbrev cleanly (site : InstallationSite) (reply : Reply InstallationAnswer) : Prop :=
  site.cleanFinish reply = true

/-- After the commit of an ingress apply every step is answered with success. -/
theorem done_of_cleanly {site : InstallationSite} (after : site.afterCommit = true)
    (reply : Reply InstallationAnswer) (clean : cleanly site reply) :
    ∃ answer, reply = .done answer := by
  cases reply with
  | done answer => exact ⟨answer, rfl⟩
  | refused => simp [cleanly, InstallationSite.cleanFinish, after] at clean
  | lost answer =>
    cases site <;> simp_all [cleanly, InstallationSite.cleanFinish, InstallationSite.afterCommit]

/-- When it is answered cleanly, an error of the save leaves the transaction open. -/
theorem wp_saveJournal_cleanly {value known : InstallationJournal}
    (found : s.journal.entry.visible = some known) (same : value.Same known)
    (uncommitted : known.phase ≠ .committed) :
    (saveJournal (.apply .ingress) { value with phase := .committed }).wp cleanly (fun _ _ => True)
      (fun _ t => t.Open value) (fun _ _ => True) s := by
  have opened : ∀ t : InstallationHost, t.journal.entry = s.journal.entry →
      ∀ _ : InstallationError, t.Open value :=
    fun t journal _ => ⟨known, journal ▸ found, same, uncommitted⟩
  have renamed : ∀ t : InstallationHost, t.journal.entry = s.journal.entry → (do
        Process.modify (.renameJournal (.apply .ingress) { value with phase := .committed }) fun s =>
          installationJournalFile.set s
            ((installationJournalFile.get s).publish (some { value with phase := .committed }))
        Process.modify (.syncJournal (.apply .ingress) .committed) fun s =>
          installationJournalFile.set s (installationJournalFile.get s).sync : InstallationProcess Unit).wp
        cleanly (fun _ _ => True) (fun _ t => t.Open value) (fun _ _ => True) t := by
    intro t journal
    have synced : ∀ u : InstallationHost,
        (Process.modify (.syncJournal (.apply .ingress) .committed) fun s =>
          installationJournalFile.set s (installationJournalFile.get s).sync : InstallationProcess Unit).wp
          cleanly (fun _ _ => True) (fun _ t => t.Open value) (fun _ _ => True) u :=
      fun u => Process.wp_modify_done trivial (done_of_cleanly rfl) trivial
    refine Process.wp_bind.mpr (Process.wp_act.mpr ⟨trivial, fun reply clean => ?_⟩)
    cases reply with
    | done answer => exact synced _
    | refused => exact opened t journal .host
    | lost answer => simp [cleanly, InstallationSite.cleanFinish] at clean
  have replaced : ∀ t : InstallationHost, t.journal.entry = s.journal.entry →
      (Process.replaceFile installationJournalFile .createJournalTemporary
        (.renameJournal (.apply .ingress) { value with phase := .committed })
        (.syncJournal (.apply .ingress) .committed) .temporaryExists
        (some { value with phase := .committed }) : InstallationProcess Unit).wp cleanly (fun _ _ => True)
        (fun _ t => t.Open value) (fun _ _ => True) t := by
    intro t journal
    refine Process.wp_bind.mpr (Process.wp_act.mpr ⟨trivial, fun reply _ => ?_⟩)
    have started : ∀ file, t.journal.create = some file →
        ({ t with journal := file } : InstallationHost).journal.entry = s.journal.entry :=
      fun file made => (AtomicFile.create_entry made).trans journal
    cases made : t.journal.create with
    | none => cases reply <;> simpa [Reply.apply, installationJournalFile, made] using opened t journal .host
    | some file =>
      cases reply with
      | done answer =>
        have next := renamed _ (started file made)
        simpa [Reply.apply, installationJournalFile, made] using next
      | refused => simpa [Reply.apply] using opened t journal .host
      | lost answer =>
        simpa [Reply.apply, installationJournalFile, made] using opened _ (started file made) .host
  have here := opened s rfl
  refine Process.wp_bind.mpr (Process.wp_ask trivial here fun _ _ _ => ?_)
  refine Process.wp_bind.mpr (Process.wp_require.mpr ⟨fun _ => ?_, fun _ => here .host⟩)
  refine Process.wp_bind.mpr (Process.wp_ask trivial here fun _ _ _ => ?_)
  refine Process.wp_bind.mpr (Process.wp_bind.mpr (Process.wp_ask trivial here fun _ found _ => ?_))
  refine Process.wp_ite.mpr ⟨fun _ => ?_, fun _ => replaced s rfl⟩
  exact Process.wp_modify trivial here (opened _ rfl) (replaced _ rfl)

/-- When the clean-up of an ingress apply does not fail, an error of `commit` leaves the transaction
open. -/
theorem wp_commit_cleanly {value known : InstallationJournal}
    (found : s.journal.entry.visible = some known) (same : value.Same known)
    (uncommitted : known.phase ≠ .committed) :
    (commit (.apply .ingress) value).wp cleanly (fun _ _ => True) (fun _ t => t.Open value)
      (fun _ _ => True) s := by
  refine Process.wp_bind.mpr ((wp_saveJournal_cleanly found same uncommitted).mono ?_
    (fun _ _ held => held) fun _ _ held => held)
  intro _ t _
  refine Process.wp_bind.mpr (Process.wp_ask_done trivial (done_of_cleanly rfl) fun _ => ⟨(), rfl, ?_⟩)
  refine Process.wp_bind.mpr (Process.wp_ask_done trivial (done_of_cleanly rfl) fun _ => ⟨(), rfl, ?_⟩)
  refine Process.wp_bind.mpr (Process.wp_modify_done trivial (done_of_cleanly rfl) ?_)
  exact Process.wp_modify_done trivial (done_of_cleanly rfl) trivial

/-- What a recovery that returns has done with the journal that it found. -/
def InstallationRecovery.Achieved (recovery : InstallationRecovery) (began t : InstallationHost) : Prop :=
  match began.journal.entry.visible with
  | none => recovery = .nothing
  | some value =>
    match recovery with
    | .nothing => False
    | .committed => (value.phase = .committed ∨ value.kind = .initial) ∧ t.Holds value.after ∧
        t.journal.entry = .settled none
    | .rolledBack => value.kind = .ingress ∧ t.Holds value.before ∧ t.journal.entry = .settled none
    | .pendingHealth => value.kind = .initial ∧ t.journal.entry = began.journal.entry
    | .awaitingCredentials => value.kind = .initial ∧ t.owner ≠ some value.id ∧
        t.journal.entry = began.journal.entry

theorem wp_quiesceUnits {units : List String} {beforeStart : Bool} (coherent : s.Coherent)
    {E : InstallationError → InstallationHost → Prop} (fails : ∀ error, E error s) :
    (quiesceUnits units beforeStart).wp allowed (fun _ t => t = s) E InstallationSite.Meets s :=
  Process.wp_ite.mpr ⟨fun _ => wp_checkInstallationUnits coherent fails,
    fun _ => wp_stopUnits coherent fails⟩

theorem wp_startRestored {units : List String} (coherent : s.Coherent)
    {E : InstallationError → InstallationHost → Prop} (fails : ∀ error, E error s) :
    (startRestored units).wp allowed (fun _ t => t = s) E InstallationSite.Meets s := by
  refine Process.wp_bind.mpr ((Process.wp_each (P := (· = s)) (fun unit _ t same => ?_) rfl).mono ?_
    (fun _ _ held => held) fun _ _ held => held)
  · subst same
    exact wp_installationCall coherent trivial fails rfl
  rintro _ s rfl
  refine Process.wp_bind.mpr ((wp_checkInstallationUnits coherent fails).mono ?_ (fun _ _ held => held)
    fun _ _ held => held)
  rintro _ s rfl
  refine Process.wp_bind.mpr (wp_installationCall coherent trivial fails ?_)
  exact wp_checkInstallationUnits coherent fails

/-- The slots that an open transaction rewrites are settled afterwards, and so are all others. -/
theorem settled_of_rewritten {t : InstallationHost} {value : InstallationJournal} (kept : t.Coherent)
    (found : t.journal.entry.visible = some value)
    (written : ∀ name, value.Concerns name → t.Settled name) : ∀ name, t.Settled name := by
  intro name
  by_cases concerns : value.Concerns name
  · exact written name concerns
  · refine kept.settled name fun other seen => .inl ?_
    cases found.symm.trans seen
    exact concerns

theorem wp_recoverCommitted {value : InstallationJournal} {owner : OwnerState} {beforeStart : Bool}
    (coherent : s.Coherent) (found : s.journal.entry.visible = some value)
    (committed : value.phase = .committed) :
    (recoverCommitted value owner beforeStart).wp allowed
      (fun recovery t => t.Coherent ∧ recovery.Achieved s t) (fun _ t => t.Coherent)
      InstallationSite.Meets s := by
  have settled : ∀ name, s.Settled name := by
    intro name
    refine coherent.settled name fun other seen => .inr ?_
    cases found.symm.trans seen
    exact committed
  refine Process.wp_bind.mpr ((wp_snapshotFiles coherent fun _ => coherent).mono ?_
    (fun _ _ held => held) fun _ _ held => held)
  rintro published s ⟨rfl, listed⟩
  refine Process.wp_bind.mpr (Process.wp_require.mpr ⟨fun equal => ?_, fun _ => coherent⟩)
  have holds : s.Holds value.after :=
    holds_of_snapshot (fun entry _ => settled entry.1) (listed ▸ equal.2)
  refine Process.wp_ite.mpr ⟨fun _ => ?_, fun _ => ?_⟩
  · refine Process.wp_bind.mpr (wp_installationCall coherent trivial (fun _ => coherent) ?_)
    refine Process.wp_bind.mpr ((wp_clearInstallation coherent ?_ settled).mono ?_
      (fun _ _ held => held) fun _ _ held => held)
    · intro other seen
      cases found.symm.trans seen
      exact .inl ⟨committed, holds⟩
    · rintro _ t ⟨kept, files, gone⟩
      refine ⟨kept, ?_⟩
      simp only [InstallationRecovery.Achieved, found]
      exact ⟨.inl committed, files.holds holds, gone⟩
  · refine Process.wp_bind.mpr ((wp_finish coherent found value.same_refl).mono ?_
      (fun _ _ held => held) fun _ _ held => held)
    rintro _ t ⟨kept, finished⟩
    refine ⟨kept, ?_⟩
    simp only [InstallationRecovery.Achieved, found]
    exact ⟨.inl committed, finished.holds, finished.journal⟩

theorem wp_recoverIngress {value : InstallationJournal} {owner : OwnerState} {beforeStart : Bool}
    (coherent : s.Coherent) (found : s.journal.entry.visible = some value)
    (valid : validateInstallationJournal value = true)
    (uncommitted : value.phase ≠ .committed) (ingress : value.kind = .ingress) :
    (recoverIngress value owner beforeStart).wp allowed
      (fun recovery t => t.Coherent ∧ recovery.Achieved s t) (fun _ t => t.Coherent)
      InstallationSite.Meets s := by
  refine Process.wp_bind.mpr (Process.wp_require.mpr ⟨fun _ => ?_, fun _ => coherent⟩)
  refine Process.wp_bind.mpr ((wp_quiesceUnits coherent fun _ => coherent).mono ?_
    (fun _ _ held => held) fun _ _ held => held)
  rintro _ s rfl
  refine Process.wp_bind.mpr ((wp_replace coherent found uncommitted (fun entry member => .inl member)
    ((coherent.durable value found).imp id And.left)
    (fun initial => by rw [ingress] at initial; cases initial)).mono ?_
    (fun _ _ failed => failed.1) fun _ _ held => held)
  rintro _ t ⟨kept, frame, written⟩
  have visible : t.journal.entry.visible = some value := frame.journal ▸ found
  have settled : ∀ name, t.Settled name := by
    refine settled_of_rewritten kept visible fun name concerns => ?_
    obtain ⟨entry, member, same⟩ := List.mem_map.mp (InstallationJournal.concerns_of_valid valid concerns).1
    exact same ▸ written entry member
  refine Process.wp_bind.mpr (wp_installationCall kept trivial (fun _ => kept) ?_)
  refine Process.wp_bind.mpr (wp_installationCall kept trivial (fun _ => kept) ?_)
  have started : (if beforeStart then pure () else startRestored value.units : InstallationProcess Unit).wp
      allowed (fun _ u => u = t) (fun _ u => u.Coherent) InstallationSite.Meets t :=
    Process.wp_ite.mpr ⟨fun _ => rfl, fun _ => wp_startRestored kept fun _ => kept⟩
  refine Process.wp_bind.mpr (started.mono ?_ (fun _ _ held => held) fun _ _ held => held)
  rintro _ t rfl
  refine Process.wp_bind.mpr ((wp_snapshotFiles kept fun _ => kept).mono ?_
    (fun _ _ held => held) fun _ _ held => held)
  rintro restored t ⟨rfl, listed⟩
  refine Process.wp_bind.mpr (Process.wp_require.mpr ⟨fun equal => ?_, fun _ => kept⟩)
  have holds : t.Holds value.before :=
    holds_of_snapshot (fun entry _ => settled entry.1) (listed ▸ equal)
  refine Process.wp_bind.mpr ((wp_clearInstallation kept ?_ settled).mono ?_
    (fun _ _ held => held) fun _ _ held => held)
  · intro other seen
    cases visible.symm.trans seen
    exact .inr ⟨ingress, holds⟩
  · rintro _ u ⟨last, files, gone⟩
    refine ⟨last, ?_⟩
    simp only [InstallationRecovery.Achieved, found]
    exact ⟨ingress, files.holds holds, gone⟩

theorem wp_recoverInitial {value : InstallationJournal} {owner : OwnerState} {beforeStart : Bool}
    (coherent : s.Coherent) (found : s.journal.entry.visible = some value)
    (uncommitted : value.phase ≠ .committed) (initial : value.kind = .initial)
    (state : owner = .ours ↔ s.owner = some value.id) :
    (recoverInitial value owner beforeStart).wp allowed
      (fun recovery t => t.Coherent ∧ recovery.Achieved s t) (fun _ t => t.Coherent)
      InstallationSite.Meets s := by
  refine Process.wp_ite.mpr ⟨fun ours => ?_, fun other => ?_⟩
  · have made := state.mp ours
    refine Process.wp_ite.mpr ⟨fun _ => ?_, fun _ => ?_⟩
    · refine Process.wp_bind.mpr ((wp_checkInstallationUnits coherent fun _ => coherent).mono ?_
        (fun _ _ held => held) fun _ _ held => held)
      rintro _ s rfl
      have durable : s.Durably value :=
        (coherent.durable value found).resolve_right fun untouched => untouched.2 made
      refine Process.wp_bind.mpr ((wp_replace coherent found uncommitted (fun entry member => .inr member)
        (.inl durable) fun _ _ _ member => member).mono ?_ (fun _ _ failed => failed.1)
        fun _ _ held => held)
      rintro _ t ⟨kept, frame, _⟩
      refine Process.wp_bind.mpr (wp_installationCall kept trivial (fun _ => kept) ?_)
      refine Process.wp_bind.mpr (wp_installationCall kept trivial (fun _ => kept) ?_)
      refine ⟨kept, ?_⟩
      simp only [InstallationRecovery.Achieved, found]
      exact ⟨initial, frame.journal⟩
    · refine Process.wp_bind.mpr ((wp_finish coherent found value.same_refl).mono ?_
        (fun _ _ held => held) fun _ _ held => held)
      rintro _ t ⟨kept, finished⟩
      refine ⟨kept, ?_⟩
      simp only [InstallationRecovery.Achieved, found]
      exact ⟨.inr initial, finished.holds, finished.journal⟩
  · have unmade : s.owner ≠ some value.id := fun made => other (state.mpr made)
    refine Process.wp_bind.mpr (Process.wp_require.mpr ⟨fun _ => ?_, fun _ => coherent⟩)
    refine Process.wp_bind.mpr ((wp_quiesceUnits coherent fun _ => coherent).mono ?_
      (fun _ _ held => held) fun _ _ held => held)
    rintro _ s rfl
    refine Process.wp_bind.mpr ((wp_replace coherent found uncommitted (fun entry member => .inl member)
      ((coherent.durable value found).imp id And.left) fun _ made => absurd made unmade).mono ?_
      (fun _ _ failed => failed.1) fun _ _ held => held)
    rintro _ t ⟨kept, frame, _⟩
    refine ⟨kept, ?_⟩
    simp only [InstallationRecovery.Achieved, found]
    exact ⟨initial, frame.owner ▸ unmade, frame.journal⟩

theorem wp_recoverInstallation {beforeStart : Bool} (coherent : s.Coherent) :
    (recoverInstallation beforeStart).wp allowed
      (fun recovery t => t.Coherent ∧ recovery.Achieved s t) (fun _ t => t.Coherent)
      InstallationSite.Meets s := by
  refine Process.wp_bind.mpr (wp_readJournal coherent (fun _ => coherent) fun pending found => ?_)
  cases pending with
  | none =>
    refine ⟨coherent, ?_⟩
    simp only [InstallationRecovery.Achieved, found]
  | some value =>
    refine Process.wp_bind.mpr (Process.wp_require.mpr ⟨fun valid => ?_, fun _ => coherent⟩)
    refine Process.wp_bind.mpr (Process.wp_bind.mpr ((wp_snapshotFiles coherent fun _ => coherent).mono ?_
      (fun _ _ held => held) fun _ _ held => held))
    rintro current s ⟨rfl, _⟩
    refine Process.wp_require.mpr ⟨fun _ => ?_, fun _ => coherent⟩
    refine Process.wp_bind.mpr (wp_ownerState coherent (fun _ => coherent) fun owner state => ?_)
    refine Process.wp_bind.mpr (Process.wp_require.mpr ⟨fun _ => ?_, fun _ => coherent⟩)
    refine Process.wp_ite.mpr ⟨wp_recoverCommitted coherent found, fun uncommitted => ?_⟩
    refine Process.wp_ite.mpr ⟨wp_recoverIngress coherent found valid uncommitted, fun other => ?_⟩
    have initial : value.kind = .initial := by
      cases kind : value.kind
      · rfl
      · exact absurd kind other
    exact wp_recoverInitial coherent found uncommitted initial (state initial)

end Procedures

end LatexRenderer
