import LatexRenderer.Model.Deploy.AuthenticationChange

/-! # What a reviewed change keeps of the EnvironmentFile

`Coherent` ties the two files of a transaction together, in what is seen now and in what a power loss
may bring back: the EnvironmentFile holds nothing but the texts of each journal that may still turn up.
Every operation of the store is given one rule about it, and the two procedures are run through on these
rules.
-/

namespace LatexRenderer

open Machine

/-- The contents that the EnvironmentFile may have while the journal is there. -/
def AuthenticationJournal.Holds (value : AuthenticationJournal) (contents : String) : Prop :=
  contents = value.after ∨ value.phase = .pending ∧ contents = value.before

/-- The contents that a recovery from the journal leaves. -/
def AuthenticationJournal.outcome (value : AuthenticationJournal) : String :=
  match value.phase with
  | .pending => value.before
  | .committed => value.after

/-- What a transaction keeps of the EnvironmentFile and of its journal at every step. -/
structure CoherentEntries (environment : Durable String)
    (journal : Durable (Option AuthenticationJournal)) : Prop where
  visible : ∀ value, journal.visible = some value → environment.Both value.Holds
  stored : ∀ value, journal.stored = some value → environment.Both value.Holds
  covered : ∀ value, journal.visible = some value → value.phase = .pending →
    journal.stored = some value ∨ environment = .settled value.before
  quiet : journal.visible = none → environment = .settled environment.visible

/-- `CoherentEntries` of the two files. -/
def AuthenticationFiles.Coherent (s : AuthenticationFiles) : Prop :=
  CoherentEntries s.environment.entry s.journal.entry

/-- What the steps of a transaction need beyond that. -/
def AuthenticationSite.Needs : AuthenticationSite → AuthenticationFiles → Prop
  | .start contents _, s => s.environment.entry = .settled contents
  | .health contents, s => s.environment.entry = .settled contents
  | .unlinkJournal, s => ∀ value, s.journal.entry.visible = some value →
      s.environment.entry = .settled value.outcome
  | _, _ => True

/-- The condition at a step. -/
def AuthenticationSite.Meets (site : AuthenticationSite) (s : AuthenticationFiles) : Prop :=
  s.Coherent ∧ site.Needs s

namespace CoherentEntries

variable {environment : Durable String} {journal : Durable (Option AuthenticationJournal)}
  {value : AuthenticationJournal}

/-- A committed journal is there only with the new contents. -/
theorem settled_after (coherent : CoherentEntries environment journal)
    (found : journal.visible = some value) (committed : value.phase = .committed) :
    environment = .settled value.after := by
  obtain ⟨now, later⟩ := coherent.visible value found
  have only : ∀ contents, value.Holds contents → contents = value.after := by
    rintro contents (same | ⟨pending, _⟩)
    · exact same
    · rw [committed] at pending
      cases pending
  obtain ⟨visible, stored⟩ := environment
  rw [show visible = value.after from only _ now, show stored = value.after from only _ later]
  rfl

theorem sync_journal (coherent : CoherentEntries environment journal) :
    CoherentEntries environment journal.sync where
  visible := coherent.visible
  stored := coherent.visible
  covered := fun _ found _ => .inl found
  quiet := coherent.quiet

theorem sync_environment (coherent : CoherentEntries environment journal) :
    CoherentEntries environment.sync journal where
  visible := fun value found => (coherent.visible value found).sync
  stored := fun value found => (coherent.stored value found).sync
  covered := fun value found pending =>
    (coherent.covered value found pending).imp id fun settled => by rw [settled]; rfl
  quiet := fun _ => rfl

/-- Unlinking the journal is safe once the EnvironmentFile is safe. -/
theorem unlink (coherent : CoherentEntries environment journal)
    (settled : environment = .settled environment.visible) :
    CoherentEntries environment (journal.put none) where
  visible := by simp
  stored := coherent.stored
  covered := by simp
  quiet := fun _ => settled

/-- Going back to the old contents is always open to a pending journal. -/
theorem restore (coherent : CoherentEntries environment journal)
    (found : journal.visible = some value) (pending : value.phase = .pending) :
    CoherentEntries (environment.put value.before) journal ∧
      CoherentEntries (.settled value.before) journal := by
  rcases coherent.covered value found pending with stored | settled
  · have holds : value.Holds value.before := .inr ⟨pending, rfl⟩
    have old : ∀ other, journal.visible = some other ∨ journal.stored = some other → other = value := by
      rintro other (seen | seen)
      · exact (Option.some.inj (found.symm.trans seen)).symm
      · exact (Option.some.inj (stored.symm.trans seen)).symm
    constructor
    · exact ⟨fun other seen => old other (.inl seen) ▸ (coherent.visible value found).put holds,
        fun other seen => old other (.inr seen) ▸ (coherent.stored value stored).put holds,
        fun other seen _ => .inl (old other (.inl seen) ▸ stored),
        fun gone => by rw [found] at gone; cases gone⟩
    · exact ⟨fun other seen => by obtain rfl := old other (.inl seen); exact ⟨holds, holds⟩,
        fun other seen => by obtain rfl := old other (.inr seen); exact ⟨holds, holds⟩,
        fun other seen _ => .inl (old other (.inl seen) ▸ stored),
        fun gone => by rw [found] at gone; cases gone⟩
  · subst settled
    exact ⟨coherent, coherent⟩

theorem lose (coherent : CoherentEntries environment journal) (first second : Bool) :
    CoherentEntries (environment.lose first) (journal.lose second) := by
  have kept : ∀ value, (journal.lose second).visible = some value →
      (environment.lose first).Both value.Holds := by
    intro value found
    cases second
    · exact (coherent.visible value found).lose first
    · exact (coherent.stored value found).lose first
  exact ⟨kept, kept, fun value found _ => .inl found, fun _ => rfl⟩

end CoherentEntries

section Rules

open AuthenticationChangeStore

variable {R : Type} {reviews : Reviews R} {s : AuthenticationFiles}
  {E : AuthenticationError → AuthenticationFiles → Prop}

theorem wp_hostCall {Q : Unit → AuthenticationFiles → Prop} {site : AuthenticationSite}
    (coherent : s.Coherent) (needs : site.Needs s) (fails : ∀ error, E error s) (returns : Q () s) :
    (hostCall site).wp Process.anyAnswer Q E AuthenticationSite.Meets s :=
  Process.wp_ask ⟨coherent, needs⟩ fails fun _ _ _ => returns

theorem wp_checkUnits {units : List String} {expected : Bool} {error : AuthenticationError}
    (coherent : s.Coherent) (fails : ∀ error, E error s) :
    (checkUnits units expected error).wp Process.anyAnswer (fun _ t => t = s) E AuthenticationSite.Meets s := by
  refine Process.wp_each (P := (· = s)) (fun unit _ t same => ?_) rfl
  subst same
  refine Process.wp_bind.mpr (Process.wp_ask ⟨coherent, trivial⟩ fails fun answer value _ => ?_)
  exact Process.wp_require.mpr ⟨fun _ => rfl, fun _ => fails _⟩

theorem wp_stopConsumers {units : List String} (coherent : s.Coherent) (fails : ∀ error, E error s) :
    (stopConsumers units).wp Process.anyAnswer (fun _ t => t = s) E AuthenticationSite.Meets s := by
  refine Process.wp_bind.mpr ?_
  refine (Process.wp_each (P := (· = s)) (fun unit _ t same => ?_) rfl).mono ?_
    (fun _ _ held => held) fun _ _ held => held
  · subst same
    exact wp_hostCall coherent trivial fails rfl
  · rintro _ t rfl
    exact wp_checkUnits coherent fails

/-- Consumers are started, and their health is checked, over the contents they were started for. -/
theorem wp_startConsumers {contents : String} {units : List String} (coherent : s.Coherent)
    (settled : s.environment.entry = .settled contents) (fails : ∀ error, E error s) :
    (startConsumers contents units).wp Process.anyAnswer (fun _ t => t = s) E AuthenticationSite.Meets s := by
  refine Process.wp_bind.mpr (wp_hostCall coherent trivial fails ?_)
  have attempts : (Process.attemptEach units fun unit => hostCall (.start contents unit)).wp Process.anyAnswer
      (fun _ t => t = s) E AuthenticationSite.Meets s := by
    refine (Process.wp_attemptEach (P := (· = s)) (D := fun _ _ => True)
      (fun unit _ t same => ?_) rfl).mono (fun _ t held => held.1) (fun _ _ held => held)
      fun _ _ held => held
    subst same
    exact wp_hostCall coherent settled (fun _ => ⟨rfl, fun _ _ => trivial⟩)
      ⟨rfl, trivial, fun _ _ => trivial⟩
  refine Process.wp_bind.mpr (attempts.mono ?_ (fun _ _ held => held) fun _ _ held => held)
  rintro failed t rfl
  refine Process.wp_bind.mpr (Process.wp_require.mpr ⟨fun _ => ?_, fun _ => fails _⟩)
  refine Process.wp_bind.mpr ((wp_checkUnits coherent fails).mono ?_ (fun _ _ held => held)
    fun _ _ held => held)
  rintro _ t rfl
  exact wp_hostCall coherent settled fails rfl

theorem wp_environment {Q : String → AuthenticationFiles → Prop} (coherent : s.Coherent)
    (fails : ∀ error, E error s) (returns : Q s.environment.entry.visible s) :
    (environment reviews).wp Process.anyAnswer Q E AuthenticationSite.Meets s := by
  refine Process.wp_ask ⟨coherent, trivial⟩ fails fun _ value read => ?_
  split at read
  · cases read
    exact returns
  · cases read

theorem wp_journal {Q : Option AuthenticationJournal → AuthenticationFiles → Prop}
    (coherent : s.Coherent) (fails : ∀ error, E error s)
    (returns : ∀ value, s.journal.entry.visible = value → Q value s) :
    (journal reviews).wp Process.anyAnswer Q E AuthenticationSite.Meets s := by
  refine Process.wp_ask ⟨coherent, trivial⟩ fails fun _ value read => ?_
  cases found : s.journal.entry.visible with
  | none =>
    simp only [found, Except.ok.injEq] at read
    exact returns value (found.trans read)
  | some known =>
    simp only [found] at read
    split at read
    · cases read
      exact returns _ found
    · cases read

theorem wp_initializeStore (coherent : s.Coherent) (fails : ∀ error t, t.Coherent → E error t) :
    initializeStore.wp Process.anyAnswer
      (fun _ t => t.Coherent ∧ t.environment.entry.visible = s.environment.entry.visible ∧
        t.journal.entry.visible = s.journal.entry.visible) E AuthenticationSite.Meets s := by
  refine Process.wp_bind.mpr (Process.wp_ask ⟨coherent, trivial⟩ (fun error => fails error s coherent)
    fun _ _ _ => ?_)
  have environments : ∀ t : AuthenticationFiles, t.Coherent →
      t.environment.entry.visible = s.environment.entry.visible →
      t.journal.entry.visible = s.journal.entry.visible →
      (Process.discardTemporary environmentFile .inspectEnvironmentTemporary .discardEnvironmentTemporary
        .syncEnvironment : AuthenticationProcess Unit).wp Process.anyAnswer
        (fun _ t => t.Coherent ∧ t.environment.entry.visible = s.environment.entry.visible ∧
          t.journal.entry.visible = s.journal.entry.visible) E AuthenticationSite.Meets t := by
    intro t kept seen found
    refine Process.wp_discardTemporary ⟨kept, trivial⟩ ⟨fun error => fails error t kept, kept, seen, found⟩
      ?_ ?_
    · intro file same
      have stays : AuthenticationFiles.Coherent { t with environment := file } := by
        unfold AuthenticationFiles.Coherent
        exact same ▸ kept
      exact ⟨⟨stays, trivial⟩, ⟨stays, trivial⟩, fun error => fails error _ stays⟩
    · intro file synced
      have stays : AuthenticationFiles.Coherent { t with environment := file } := by
        unfold AuthenticationFiles.Coherent
        exact synced ▸ kept.sync_environment
      refine ⟨fun error => fails error _ stays, stays, ?_, found⟩
      exact (congrArg Durable.visible synced).trans seen
  refine Process.wp_bind.mpr (Process.wp_discardTemporary ⟨coherent, trivial⟩
    ⟨fun error => fails error s coherent, environments s coherent rfl rfl⟩ ?_ ?_)
  · intro file same
    have stays : AuthenticationFiles.Coherent { s with journal := file } := by
      unfold AuthenticationFiles.Coherent
      exact same ▸ coherent
    exact ⟨⟨stays, trivial⟩, ⟨stays, trivial⟩, fun error => fails error _ stays⟩
  · intro file synced
    have stays : AuthenticationFiles.Coherent { s with journal := file } := by
      unfold AuthenticationFiles.Coherent
      exact synced ▸ coherent.sync_journal
    have seen : file.entry.visible = s.journal.entry.visible := by rw [synced]; rfl
    exact ⟨fun error => fails error _ stays, environments _ stays rfl seen⟩

/-- The EnvironmentFile is replaced in three steps, each of which must leave a coherent state. -/
theorem wp_replaceEnvironment {contents : String} (coherent : s.Coherent)
    (renamed : CoherentEntries (s.environment.entry.put contents) s.journal.entry)
    (synced : CoherentEntries (.settled contents) s.journal.entry)
    (fails : ∀ error t, t.Coherent → E error t) :
    (replaceEnvironment reviews contents).wp Process.anyAnswer
      (fun _ t => t.Coherent ∧ t.environment.entry = .settled contents ∧ t.journal = s.journal)
      E AuthenticationSite.Meets s := by
  refine Process.wp_bind.mpr (Process.wp_require.mpr ⟨fun _ => ?_, fun _ => fails _ s coherent⟩)
  have stays : ∀ file, CoherentEntries file.entry s.journal.entry →
      AuthenticationFiles.Coherent (environmentFile.set s file) := fun _ held => held
  refine Process.wp_replaceFile ⟨coherent, trivial⟩ (fun error => fails error s coherent) ?_ ?_ ?_
  · intro file same
    have held := stays file (same ▸ coherent)
    exact ⟨⟨held, trivial⟩, fun error => fails error _ held⟩
  · intro file same
    have held := stays file (same ▸ renamed)
    exact ⟨⟨held, trivial⟩, fun error => fails error _ held⟩
  · intro file same
    have held := stays file (same ▸ synced)
    exact ⟨fun error => fails error _ held, held, same, rfl⟩

/-- The journal is replaced in three steps, each of which must leave a coherent state. -/
theorem wp_saveJournal {value : AuthenticationJournal} (coherent : s.Coherent)
    (renamed : CoherentEntries s.environment.entry (s.journal.entry.put (some value)))
    (fails : ∀ error t, t.Coherent → E error t) :
    (saveJournal reviews value).wp Process.anyAnswer
      (fun _ t => t.Coherent ∧ t.journal.entry = .settled (some value) ∧ t.environment = s.environment)
      E AuthenticationSite.Meets s := by
  refine Process.wp_bind.mpr (Process.wp_require.mpr ⟨fun _ => ?_, fun _ => fails _ s coherent⟩)
  have stays : ∀ file, CoherentEntries s.environment.entry file.entry →
      AuthenticationFiles.Coherent (journalFile.set s file) := fun _ held => held
  refine Process.wp_replaceFile ⟨coherent, trivial⟩ (fun error => fails error s coherent) ?_ ?_ ?_
  · intro file same
    have held := stays file (same ▸ coherent)
    exact ⟨⟨held, trivial⟩, fun error => fails error _ held⟩
  · intro file same
    have held := stays file (same ▸ renamed)
    exact ⟨⟨held, trivial⟩, fun error => fails error _ held⟩
  · intro file same
    have held := stays file (same ▸ renamed.sync_journal)
    exact ⟨fun error => fails error _ held, held, same, rfl⟩

/-- The journal is unlinked once the EnvironmentFile is what a recovery from it would leave. -/
theorem wp_clear (coherent : s.Coherent)
    (outcome : ∀ value, s.journal.entry.visible = some value →
      s.environment.entry = .settled value.outcome)
    (fails : ∀ error t, t.Coherent → E error t) :
    clear.wp Process.anyAnswer
      (fun _ t => t.Coherent ∧ t.journal.entry = .settled none ∧ t.environment = s.environment)
      E AuthenticationSite.Meets s := by
  have settled : s.environment.entry = .settled s.environment.entry.visible := by
    cases found : s.journal.entry.visible with
    | none => exact coherent.quiet found
    | some value => rw [outcome value found]; rfl
  have unlinked := coherent.unlink settled
  have stays : ∀ file, CoherentEntries s.environment.entry file.entry →
      AuthenticationFiles.Coherent (journalFile.set s file) := fun _ held => held
  refine Process.wp_unlinkFile ⟨coherent, outcome⟩ (fun error => fails error s coherent) ?_ ?_
  · intro file same
    have held := stays file (same ▸ unlinked)
    exact ⟨⟨held, trivial⟩, fun error => fails error _ held⟩
  · intro file same
    have held := stays file (same ▸ unlinked.sync_journal)
    exact ⟨fun error => fails error _ held, held, same, rfl⟩

/-- What a recovery from the journal that it found has done. -/
def Recovered (began : AuthenticationFiles) (done : Bool) (s : AuthenticationFiles) : Prop :=
  s.journal.entry.visible = none ∧
    match began.journal.entry.visible with
    | none => done = false ∧ s.environment.entry.visible = began.environment.entry.visible
    | some value => done = true ∧ s.journal.entry = .settled none ∧
        s.environment.entry = .settled value.outcome

/-- `recoverAuthenticationChange` keeps every step coherent and ends with the outcome of the journal. -/
theorem wp_recoverAuthenticationChange {beforeStart : Bool} (coherent : s.Coherent) :
    (recoverAuthenticationChange reviews beforeStart).wp Process.anyAnswer
      (fun done t => t.Coherent ∧ Recovered s done t) (fun _ t => t.Coherent)
      AuthenticationSite.Meets s := by
  have fails : ∀ (error : AuthenticationError) (t : AuthenticationFiles), t.Coherent → t.Coherent :=
    fun _ _ held => held
  refine Process.wp_bind.mpr ((wp_initializeStore coherent fails).mono ?_ (fun _ _ held => held)
    fun _ _ held => held)
  rintro _ t ⟨kept, seen, found⟩
  refine Process.wp_bind.mpr (wp_journal kept (fun _ => kept) fun pending read => ?_)
  cases pending with
  | none =>
    refine ⟨kept, read, ?_⟩
    rw [← found, read]
    exact ⟨rfl, seen⟩
  | some value =>
    have began : s.journal.entry.visible = some value := found.symm.trans read
    refine Process.wp_bind.mpr (wp_environment kept (fun _ => kept) ?_)
    refine Process.wp_bind.mpr (Process.wp_require.mpr ⟨fun _ => ?_, fun _ => kept⟩)
    -- `clear` comes last on both ways, over the outcome of the journal
    have cleared : ∀ u : AuthenticationFiles, u.Coherent → u.journal = t.journal →
        u.environment.entry = .settled value.outcome →
        (do clear; pure true : AuthenticationProcess Bool).wp Process.anyAnswer
          (fun done t => t.Coherent ∧ Recovered s done t) (fun _ t => t.Coherent)
          AuthenticationSite.Meets u := by
      intro u held same settled
      have outcome : ∀ other, u.journal.entry.visible = some other →
          u.environment.entry = .settled other.outcome := by
        intro other seen
        rw [same, read] at seen
        cases seen
        exact settled
      refine Process.wp_bind.mpr ((wp_clear held outcome fails).mono ?_ (fun _ _ held => held)
        fun _ _ held => held)
      rintro _ v ⟨held, gone, environment⟩
      refine ⟨held, by rw [gone]; rfl, ?_⟩
      rw [began]
      exact ⟨rfl, gone, environment ▸ settled⟩
    refine Process.wp_ite.mpr ⟨fun committed => ?_, fun other => ?_⟩
    · refine Process.wp_bind.mpr (Process.wp_require.mpr ⟨fun _ => ?_, fun _ => kept⟩)
      refine cleared t kept rfl ?_
      rw [kept.settled_after read committed, AuthenticationJournal.outcome, committed]
    · have pending : value.phase = .pending := by
        cases phase : value.phase
        · rfl
        · exact absurd phase other
      have outcome : value.outcome = value.before := by rw [AuthenticationJournal.outcome, pending]
      obtain ⟨renamed, synced⟩ := kept.restore read pending
      have stopped : ∀ units : List String,
          (if beforeStart then checkUnits units false .bootRequiresStopped
            else stopConsumers units : AuthenticationProcess Unit).wp Process.anyAnswer
            (fun _ u => u = t) (fun _ t => t.Coherent) AuthenticationSite.Meets t := by
        intro units
        refine Process.wp_ite.mpr ⟨fun _ => ?_, fun _ => ?_⟩
        · exact wp_checkUnits kept fun _ => kept
        · exact wp_stopConsumers kept fun _ => kept
      refine Process.wp_bind.mpr ((stopped _).mono ?_ (fun _ _ held => held) fun _ _ held => held)
      rintro _ _ rfl
      refine Process.wp_bind.mpr ((wp_replaceEnvironment kept renamed synced fails).mono ?_
        (fun _ _ held => held) fun _ _ held => held)
      rintro _ u ⟨held, settled, same⟩
      refine Process.wp_bind.mpr (Process.wp_ite.mpr ⟨fun _ => ?_, fun _ => ?_⟩)
      · exact wp_hostCall held trivial (fun _ => held) (cleared u held same (outcome ▸ settled))
      · refine (wp_startConsumers held settled fun _ => held).mono ?_ (fun _ _ held => held)
          fun _ _ held => held
        rintro _ _ rfl
        exact cleared _ held same (outcome ▸ settled)

theorem wp_rollBack {Q : Unit → AuthenticationFiles → Prop} (coherent : s.Coherent) :
    (rollBack reviews).wp Process.anyAnswer Q (fun _ t => t.Coherent) AuthenticationSite.Meets s := by
  refine Process.wp_bind.mpr (Process.wp_tryCatch.mpr (Process.wp_bind.mpr ?_))
  refine (wp_recoverAuthenticationChange coherent).mono ?_ (fun _ _ held => held) fun _ _ held => held
  exact fun _ _ held => held.1

/-- The `try` block ends with the new contents and a committed journal. -/
theorem wp_cutover {pending : AuthenticationJournal} {units : List String} (coherent : s.Coherent)
    (began : pending.phase = .pending) (old : s.environment.entry = .settled pending.before)
    (written : s.journal.entry = .settled (some pending)) :
    (cutover reviews pending units).wp Process.anyAnswer
      (fun _ t => t.Coherent ∧ t.environment.entry = .settled pending.after ∧
        t.journal.entry = .settled (some { pending with phase := .committed }))
      (fun _ t => t.Coherent) AuthenticationSite.Meets s := by
  have fails : ∀ (error : AuthenticationError) (t : AuthenticationFiles), t.Coherent → t.Coherent :=
    fun _ _ held => held
  have before : pending.Holds pending.before := .inr ⟨began, rfl⟩
  have after : pending.Holds pending.after := .inl rfl
  have only : ∀ environment : Durable String, environment.Both pending.Holds →
      CoherentEntries environment s.journal.entry := by
    intro environment holds
    rw [written]
    refine ⟨fun other found => ?_, fun other found => ?_, fun other found _ => .inl found, by simp⟩
    · cases found
      exact holds
    · cases found
      exact holds
  refine Process.wp_bind.mpr ((wp_stopConsumers coherent fun _ => coherent).mono ?_
    (fun _ _ held => held) fun _ _ held => held)
  rintro _ s rfl
  refine Process.wp_bind.mpr (wp_environment coherent (fun _ => coherent) ?_)
  refine Process.wp_bind.mpr (Process.wp_require.mpr ⟨fun _ => ?_, fun _ => coherent⟩)
  refine Process.wp_bind.mpr ((wp_replaceEnvironment coherent (only _ ?_) (only _ ⟨after, after⟩)
    fails).mono ?_ (fun _ _ held => held) fun _ _ held => held)
  · exact old ▸ ⟨after, before⟩
  rintro _ t ⟨held, new, journal⟩
  refine Process.wp_bind.mpr ((wp_startConsumers held new fun _ => held).mono ?_
    (fun _ _ held => held) fun _ _ held => held)
  rintro _ t rfl
  refine Process.wp_bind.mpr (wp_environment held (fun _ => held) ?_)
  refine Process.wp_bind.mpr (Process.wp_require.mpr ⟨fun _ => ?_, fun _ => held⟩)
  have committed : CoherentEntries t.environment.entry
      (t.journal.entry.put (some { pending with phase := .committed })) := by
    refine ⟨fun other found => ?_, held.stored, fun other found waits => ?_, by simp⟩
    · cases found
      exact new ▸ ⟨.inl rfl, .inl rfl⟩
    · cases found
      cases waits
  refine (wp_saveJournal held committed fails).mono ?_ (fun _ _ held => held) fun _ _ held => held
  rintro _ u ⟨held, saved, environment⟩
  exact ⟨held, environment ▸ new, saved⟩

/-- What an applied change has done: the reviewed contents are safe and no journal is left. -/
def Applied (prepare : String → R → Option PreparedEnvironment)
    (envelope : Option (AuthenticationEnvelope R)) (began : AuthenticationFiles) (contents : String)
    (s : AuthenticationFiles) : Prop :=
  s.environment.entry = .settled contents ∧ s.journal.entry.visible = none ∧
    ∃ approved prepared, envelope = some approved ∧
      prepare began.environment.entry.visible approved.review = some prepared ∧
      contents = prepared.after

/-- `applyReviewedEnvironment` keeps every step coherent and returns only with the new contents. -/
theorem wp_applyReviewedEnvironment {format : Nat} {prepare : String → R → Option PreparedEnvironment}
    {unitsOf : String → List String} {envelope : Option (AuthenticationEnvelope R)}
    (coherent : s.Coherent) :
    (applyReviewedEnvironment reviews format prepare unitsOf envelope).wp Process.anyAnswer
      (fun contents t => t.Coherent ∧ Applied prepare envelope s contents t) (fun _ t => t.Coherent)
      AuthenticationSite.Meets s := by
  have fails : ∀ (error : AuthenticationError) (t : AuthenticationFiles), t.Coherent → t.Coherent :=
    fun _ _ held => held
  refine Process.wp_bind.mpr ((wp_initializeStore coherent fails).mono ?_ (fun _ _ held => held)
    fun _ _ held => held)
  rintro _ t ⟨kept, seen, _⟩
  refine Process.wp_bind.mpr (wp_journal kept (fun _ => kept) fun previous read => ?_)
  refine Process.wp_bind.mpr (Process.wp_require.mpr ⟨fun empty => ?_, fun _ => kept⟩)
  subst empty
  have old := kept.quiet read
  cases approval : envelope with
  | none => exact kept
  | some approved =>
    refine Process.wp_bind.mpr (Process.wp_require.mpr ⟨fun _ => ?_, fun _ => kept⟩)
    refine Process.wp_bind.mpr (wp_environment kept (fun _ => kept) ?_)
    cases made : prepare t.environment.entry.visible approved.review with
    | none => simpa only [made, Process.wp_throw] using kept
    | some prepared =>
      have achieved : ∀ u : AuthenticationFiles, u.environment.entry = .settled prepared.after →
          u.journal.entry.visible = none → Applied prepare (some approved) s prepared.after u :=
        fun u settled gone => ⟨settled, gone, approved, prepared, rfl, seen ▸ made, rfl⟩
      refine Process.wp_bind.mpr (Process.wp_require.mpr ⟨fun _ => ?_, fun _ => kept⟩)
      refine Process.wp_bind.mpr (wp_hostCall kept trivial (fun _ => kept) ?_)
      refine Process.wp_bind.mpr ((wp_checkUnits kept fun _ => kept).mono ?_ (fun _ _ held => held)
        fun _ _ held => held)
      rintro _ t rfl
      refine Process.wp_bind.mpr (wp_hostCall kept old (fun _ => kept) ?_)
      refine Process.wp_bind.mpr (wp_environment kept (fun _ => kept) ?_)
      refine Process.wp_bind.mpr (Process.wp_require.mpr ⟨fun _ => ?_, fun _ => kept⟩)
      refine Process.wp_ite.mpr ⟨fun unchanged => ?_, fun _ => ?_⟩
      · exact ⟨kept, achieved _ (unchanged.2 ▸ old) read⟩
      · have begun : CoherentEntries t.environment.entry (t.journal.entry.put
            (some ⟨format, .pending, t.environment.entry.visible, prepared.after⟩)) := by
          refine ⟨fun other found => ?_, kept.stored, fun other found _ => .inr ?_, by simp⟩
          · cases found
            exact old ▸ ⟨.inr ⟨rfl, rfl⟩, .inr ⟨rfl, rfl⟩⟩
          · cases found
            exact old
        refine Process.wp_bind.mpr ((wp_saveJournal kept begun fails).mono ?_ (fun _ _ held => held)
          fun _ _ held => held)
        rintro _ u ⟨held, written, environment⟩
        refine Process.wp_bind.mpr (Process.wp_tryCatch.mpr ?_)
        refine (wp_cutover held rfl (environment ▸ old) written).mono ?_
          (fun _ _ held => wp_rollBack held) fun _ _ held => held
        rintro _ v ⟨held, new, committed⟩
        have outcome : ∀ value, v.journal.entry.visible = some value →
            v.environment.entry = .settled value.outcome := by
          intro value found
          rw [committed] at found
          cases found
          exact new
        refine Process.wp_bind.mpr ((wp_clear held outcome fails).mono ?_ (fun _ _ held => held)
          fun _ _ held => held)
        rintro _ w ⟨held, gone, same⟩
        exact ⟨held, achieved w (same ▸ new) (by rw [gone]; rfl)⟩

end Rules

section Steps

open AuthenticationChangeStore

variable {R : Type} {reviews : Reviews R}

/-- Only the unlink takes a journal away. -/
def KeepsJournal (site : AuthenticationSite) (s t : AuthenticationFiles) : Prop :=
  t.journal.entry.visible = none → s.journal.entry.visible = none ∨ site = .unlinkJournal

theorem steps_initializeStore : initializeStore.Steps KeepsJournal := by
  refine .bind (.ask fun _ => .inl) fun _ => .bind ?_ fun _ => ?_
  · exact .discardTemporary (fun _ _ => .inl) (fun _ => .inl) fun _ => .inl
  · exact .discardTemporary (fun _ _ => .inl) (fun _ => .inl) fun _ => .inl

theorem steps_checkUnits {units : List String} {expected : Bool} {error : AuthenticationError} :
    (checkUnits units expected error).Steps KeepsJournal :=
  .each fun _ => .bind (.ask fun _ => .inl) fun _ => .require

theorem steps_stopConsumers {units : List String} : (stopConsumers units).Steps KeepsJournal :=
  .bind (.each fun _ => .ask fun _ => .inl) fun _ => steps_checkUnits

theorem steps_startConsumers {contents : String} {units : List String} :
    (startConsumers contents units).Steps KeepsJournal := by
  refine .bind (.ask fun _ => .inl) fun _ => .bind (.attemptEach fun _ => .ask fun _ => .inl) fun _ => ?_
  exact .bind .require fun _ => .bind steps_checkUnits fun _ => .ask fun _ => .inl

theorem steps_replaceEnvironment {contents : String} :
    (replaceEnvironment reviews contents).Steps KeepsJournal :=
  .bind .require fun _ => .replaceFile (fun _ _ => .inl) (fun _ _ _ => .inl) (fun _ => .inl) fun _ => .inl

theorem steps_saveJournal {value : AuthenticationJournal} :
    (saveJournal reviews value).Steps KeepsJournal := by
  refine .bind .require fun _ => .replaceFile (fun _ _ => .inl) (fun s file same gone => .inl ?_)
    (fun s gone => ?_) fun _ => .inl
  · exact (congrArg Durable.visible same).symm.trans gone
  · cases gone

theorem steps_clear : clear.Steps KeepsJournal :=
  .unlinkFile (fun _ _ => .inl) (fun _ _ _ _ => .inr rfl) fun _ => .inl

theorem steps_recoverAuthenticationChange {beforeStart : Bool} :
    (recoverAuthenticationChange reviews beforeStart).Steps KeepsJournal := by
  refine .bind steps_initializeStore fun _ => .bind (.ask fun _ => .inl) fun pending => ?_
  cases pending with
  | none => trivial
  | some value =>
    refine .bind (.ask fun _ => .inl) fun current => .bind .require fun _ => ?_
    split
    · exact .bind .require fun _ => .bind steps_clear fun _ => trivial
    · refine .bind ?_ fun _ => .bind steps_replaceEnvironment fun _ => .bind ?_ fun _ =>
        .bind steps_clear fun _ => trivial
      · split
        · exact steps_checkUnits
        · exact steps_stopConsumers
      · split
        · exact .ask fun _ => .inl
        · exact steps_startConsumers

theorem steps_applyReviewedEnvironment {format : Nat} {prepare : String → R → Option PreparedEnvironment}
    {unitsOf : String → List String} {envelope : Option (AuthenticationEnvelope R)} :
    (applyReviewedEnvironment reviews format prepare unitsOf envelope).Steps KeepsJournal := by
  refine .bind steps_initializeStore fun _ => .bind (.ask fun _ => .inl) fun _ => .bind .require fun _ => ?_
  cases envelope with
  | none => trivial
  | some approved =>
    refine .bind .require fun _ => .bind (.ask fun _ => .inl) fun before => ?_
    cases prepare before approved.review with
    | none => trivial
    | some prepared =>
      refine .bind .require fun _ => .bind (.ask fun _ => .inl) fun _ => .bind steps_checkUnits fun _ =>
        .bind (.ask fun _ => .inl) fun _ => .bind (.ask fun _ => .inl) fun _ => .bind .require fun _ => ?_
      split
      · trivial
      · refine .bind steps_saveJournal fun _ => .bind (.handle ?_ fun _ => ?_) fun _ =>
          .bind steps_clear fun _ => trivial
        · exact .bind steps_stopConsumers fun _ => .bind (.ask fun _ => .inl) fun _ => .bind .require fun _ =>
            .bind steps_replaceEnvironment fun _ => .bind steps_startConsumers fun _ =>
            .bind (.ask fun _ => .inl) fun _ => .bind .require fun _ => steps_saveJournal
        · refine .bind (.handle ?_ fun _ => trivial) fun _ => trivial
          exact .bind steps_recoverAuthenticationChange fun _ => trivial

theorem steps_authenticationCall (call : AuthenticationCall R) :
    (call.process reviews).Steps KeepsJournal := by
  cases call with
  | applyAuthenticationChange envelope => exact .bind steps_applyReviewedEnvironment fun _ => trivial
  | applyServerSetupChange envelope =>
    exact .bind steps_applyReviewedEnvironment fun _ => .bind (.ask fun _ => .inl) fun _ =>
      .bind .require fun _ => trivial
  | recoverAuthenticationChange beforeStart =>
    exact .bind steps_recoverAuthenticationChange fun _ => trivial

end Steps

section Runs

variable {R : Type} (reviews : Reviews R)

/-- What a call that returns has done. -/
def AuthenticationCall.Achieved (call : AuthenticationCall R) (began : AuthenticationFiles)
    (result : AuthenticationResult) (s : AuthenticationFiles) : Prop :=
  match call, result with
  | .applyAuthenticationChange envelope, .applied contents =>
    Applied reviews.authenticationChangeReview envelope began contents s
  | .applyServerSetupChange envelope, .applied contents =>
    Applied reviews.serverSetupChangeReview envelope began contents s
  | .recoverAuthenticationChange _, .recovered done => Recovered began done s
  | _, _ => False

/-- What every call of the command promises. -/
def authenticationPromise : Service.Promise AuthenticationSite (AuthenticationCall R)
    AuthenticationFiles AuthenticationError AuthenticationResult where
  Inv := AuthenticationFiles.Coherent
  At := AuthenticationSite.Meets
  Returns call began result s := s.Coherent ∧ call.Achieved reviews began result s
  Raises _ _ _ s := s.Coherent
  at_inv := And.left
  returns_inv := And.left
  raises_inv := id

theorem wp_authenticationCall (call : AuthenticationCall R) {s : AuthenticationFiles}
    (coherent : s.Coherent) :
    (call.process reviews).wp Process.anyAnswer
      (fun result t => t.Coherent ∧ call.Achieved reviews s result t) (fun _ t => t.Coherent)
      AuthenticationSite.Meets s := by
  cases call with
  | applyAuthenticationChange envelope =>
    refine Process.wp_bind.mpr ((wp_applyReviewedEnvironment coherent).mono ?_ (fun _ _ held => held)
      fun _ _ held => held)
    exact fun contents t held => held
  | applyServerSetupChange envelope =>
    refine Process.wp_bind.mpr ((wp_applyReviewedEnvironment coherent).mono ?_ (fun _ _ held => held)
      fun _ _ held => held)
    rintro contents t ⟨kept, settled, rest⟩
    refine Process.wp_bind.mpr (wp_environment kept (fun _ => kept) ?_)
    refine Process.wp_bind.mpr (Process.wp_require.mpr ⟨fun _ => ?_, fun _ => kept⟩)
    rw [settled]
    exact ⟨kept, settled, rest⟩
  | recoverAuthenticationChange beforeStart =>
    refine Process.wp_bind.mpr ((wp_recoverAuthenticationChange coherent).mono ?_
      (fun _ _ held => held) fun _ _ held => held)
    exact fun done t held => held

/-- Every run keeps the two files coherent and every running call to its promise. -/
theorem authenticationService_governed
    {origin host : Host (AuthenticationCall R) AuthenticationSite AuthenticationFiles Bool
      AuthenticationError AuthenticationResult}
    {events : List (HostEvent (AuthenticationCall R) AuthenticationSite Bool AuthenticationError
      AuthenticationResult AuthenticationPowerLoss)}
    (init : (authenticationService reviews).machine.Init origin)
    (run : Run (authenticationService reviews).machine origin events host) :
    Service.Governed Process.anyAnswer (authenticationPromise reviews) host := by
  refine Service.governed ?_ (fun call s held => wp_authenticationCall reviews call held) ?_ init run ?_
  · rintro s ⟨⟨contents, settled⟩, empty⟩
    show CoherentEntries s.environment.entry s.journal.entry
    rw [settled, empty]
    exact ⟨by simp, by simp, by simp, fun _ => rfl⟩
  · rintro loss s t held moved
    cases moved
    exact held.lose loss.environment loss.journal
  · intro event _
    cases event <;> trivial

/-- In every run of the command, with an error or a crash at any step and with power losses between
calls: the EnvironmentFile holds the old or the new contents of a journal that is there or may come back;
consumers are started, and their health is checked, only over the contents they are started for; the
journal is removed only over its outcome, and a recovery ends with it; a change that returns leaves the
reviewed contents and no journal. While a call runs, no other begins. -/
theorem authentication_change
    {origin host : Host (AuthenticationCall R) AuthenticationSite AuthenticationFiles Bool
      AuthenticationError AuthenticationResult}
    {events : List (HostEvent (AuthenticationCall R) AuthenticationSite Bool AuthenticationError
      AuthenticationResult AuthenticationPowerLoss)}
    (init : (authenticationService reviews).machine.Init origin)
    (run : Run (authenticationService reviews).machine origin events host) :
    (∀ journal, host.shared.journal.entry.visible = some journal ∨
        host.shared.journal.entry.stored = some journal →
      host.shared.environment.entry.Both fun contents =>
        contents = journal.before ∨ contents = journal.after) ∧
    (∀ call target, (authenticationService reviews).Step host (.begin call) target →
      host.running = none) ∧
    (∀ contents unit reply target,
      (authenticationService reviews).Step host (.advance (.start contents unit) reply) target →
        host.shared.environment.entry = .settled contents) ∧
    (∀ contents reply target,
      (authenticationService reviews).Step host (.advance (.health contents) reply) target →
        host.shared.environment.entry = .settled contents) ∧
    (∀ site reply target journal,
      (authenticationService reviews).Step host (.advance site reply) target →
        host.shared.journal.entry.visible = some journal → target.shared.journal.entry.visible = none →
          host.shared.environment.entry = .settled journal.outcome) ∧
    (∀ beforeStart result target,
      (authenticationService reviews).Step host
        (.finish (.recoverAuthenticationChange beforeStart) (.ok result)) target →
        ∃ session done, host.running = some session ∧ result = .recovered done ∧
          Recovered session.began done host.shared) ∧
    (∀ envelope result target,
      (authenticationService reviews).Step host
        (.finish (.applyAuthenticationChange envelope) (.ok result)) target →
        ∃ session contents, host.running = some session ∧ result = .applied contents ∧
          Applied reviews.authenticationChangeReview envelope session.began contents host.shared) ∧
    (∀ envelope result target,
      (authenticationService reviews).Step host
        (.finish (.applyServerSetupChange envelope) (.ok result)) target →
        ∃ session contents, host.running = some session ∧ result = .applied contents ∧
          Applied reviews.serverSetupChangeReview envelope session.began contents host.shared) := by
  have governed := authenticationService_governed reviews init run
  have coherent : host.shared.Coherent := governed.inv
  have either : ∀ {journal : AuthenticationJournal} {contents : String}, journal.Holds contents →
      contents = journal.before ∨ contents = journal.after :=
    fun holds => holds.symm.imp And.right id
  refine ⟨?_, ?_, ?_, ?_, ?_, ?_, ?_, ?_⟩
  · rintro journal (seen | kept)
    · exact ⟨either (coherent.visible journal seen).1, either (coherent.visible journal seen).2⟩
    · exact ⟨either (coherent.stored journal kept).1, either (coherent.stored journal kept).2⟩
  · intro call target taken
    cases taken
    rfl
  · exact fun _ _ _ _ taken => (governed.at taken).2
  · exact fun _ _ _ taken => (governed.at taken).2
  · intro site reply target journal taken found gone
    rcases Service.steps_advance steps_authenticationCall init run taken gone with never | rfl
    · rw [found] at never
      cases never
    · exact (governed.at taken).2 journal found
  · intro beforeStart result target taken
    obtain ⟨session, running, _, _, achieved⟩ := governed.returned taken
    cases result with
    | applied contents => exact achieved.elim
    | recovered done => exact ⟨session, done, running, rfl, achieved⟩
  · intro envelope result target taken
    obtain ⟨session, running, _, _, achieved⟩ := governed.returned taken
    cases result with
    | applied contents => exact ⟨session, contents, running, rfl, achieved⟩
    | recovered done => exact achieved.elim
  · intro envelope result target taken
    obtain ⟨session, running, _, _, achieved⟩ := governed.returned taken
    cases result with
    | applied contents => exact ⟨session, contents, running, rfl, achieved⟩
    | recovered done => exact achieved.elim

/-- Reviews that accept every text and set the native backend. -/
def nativeReviews : Reviews Unit where
  checkedEnvironment _ := true
  productionAuthenticationPlan _ := true
  importServerSetupReview _ := some ()
  authenticationChangeReview _ _ := some
    ⟨"aaaaaaaaaaaaaaaaaaaaaaaaaaaaaaaaaaaaaaaaaaaaaaaaaaaaaaaaaaaaaaaa",
      "bbbbbbbbbbbbbbbbbbbbbbbbbbbbbbbbbbbbbbbbbbbbbbbbbbbbbbbbbbbbbbbb", "AUTH_BACKEND=native"⟩
  serverSetupChangeReview _ _ := none
  serverSetupConsumerUnits _ := []

/-- The approval of that review. -/
def nativeEnvelope : AuthenticationEnvelope Unit :=
  ⟨1, "aaaaaaaaaaaaaaaaaaaaaaaaaaaaaaaaaaaaaaaaaaaaaaaaaaaaaaaaaaaaaaaa",
    "bbbbbbbbbbbbbbbbbbbbbbbbbbbbbbbbbbbbbbbbbbbbbbbbbbbbbbbbbbbbbbbb", ()⟩

/-- A host that runs on a password. -/
def passwordHost : AuthenticationFiles where
  environment := { entry := .settled "AUTH_MODE=password" }
  journal := { entry := .settled none }

/-- A change whose process is killed right after the new file is in place. -/
theorem authentication_change_killed :
    ∃ origin events, ∃ host : Host (AuthenticationCall Unit) AuthenticationSite AuthenticationFiles Bool
        AuthenticationError AuthenticationResult,
      (authenticationService nativeReviews).machine.Init origin ∧
      Run (authenticationService nativeReviews).machine origin events host ∧
      host.shared.environment.entry.visible = "AUTH_BACKEND=native" ∧
      ∀ journal, host.shared.journal.entry.visible = some journal →
        host.shared.environment.entry.Both fun contents =>
          contents = journal.before ∨ contents = journal.after := by
  have init : (authenticationService nativeReviews).machine.Init ⟨passwordHost, none⟩ :=
    ⟨⟨⟨_, rfl⟩, rfl⟩, rfl⟩
  have run := Service.run_killed (authenticationService nativeReviews) passwordHost
    (.applyAuthenticationChange (some nativeEnvelope))
    (List.replicate 15 (.done true) ++ List.replicate 2 (.done false) ++ List.replicate 3 (.done true))
  exact ⟨_, _, _, init, run, rfl,
    fun journal found => (authentication_change nativeReviews init run).1 journal (.inl found)⟩

end Runs

end LatexRenderer
