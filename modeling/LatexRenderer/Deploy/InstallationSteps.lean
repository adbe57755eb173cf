import LatexRenderer.Model.Deploy.ServerInstallation

/-! # What the steps of an installation keep of the file slots

`Coherent` ties the file slots of the host to the journals that are there or may come back with a power
loss: every slot of a journal has its contents before or after, and the slots of a journal that is not yet
durable are untouched. Each operation of the store gets one rule about it.
-/

namespace LatexRenderer

open Machine

namespace InstallationJournal

/-- The contents that a slot may have while the journal is there. -/
def Fits (value : InstallationJournal) (name : String) (contents : Option String) : Prop :=
  (name, contents) ∈ value.before ∨ (name, contents) ∈ value.after

/-- The slots of a journal. -/
def Concerns (value : InstallationJournal) (name : String) : Prop :=
  name ∈ value.before.map Prod.fst ∨ name ∈ value.after.map Prod.fst

/-- Two journals of one transaction differ in nothing but the phase. -/
def Same (value other : InstallationJournal) : Prop :=
  other = { value with phase := other.phase }

theorem same_refl (value : InstallationJournal) : value.Same value := rfl

theorem Same.fits {value other : InstallationJournal} (same : value.Same other) {name : String}
    {contents : Option String} (fits : value.Fits name contents) : other.Fits name contents := by
  rw [same]
  exact fits

theorem Same.symm {value other : InstallationJournal} (same : value.Same other) : other.Same value := by
  obtain ⟨kind, id, phase, before, after, units⟩ := value
  rw [same]
  rfl

theorem Same.trans {value other third : InstallationJournal} (first : value.Same other)
    (second : other.Same third) : value.Same third := by
  rw [second, first]
  rfl

theorem Same.concerns {value other : InstallationJournal} (same : value.Same other) {name : String}
    (concerns : value.Concerns name) : other.Concerns name := by
  rw [same]
  exact concerns

theorem Fits.concerns {value : InstallationJournal} {name : String} {contents : Option String}
    (fits : value.Fits name contents) : value.Concerns name :=
  fits.imp (List.mem_map_of_mem (f := Prod.fst)) (List.mem_map_of_mem (f := Prod.fst))

end InstallationJournal

namespace InstallationHost

/-- Every slot of the journal has its contents before or after, seen now and after a power loss. -/
def Covered (s : InstallationHost) (value : InstallationJournal) : Prop :=
  ∀ name, value.Concerns name → (s.slot name).entry.Both (value.Fits name)

/-- The slots hold the entries, and no power loss takes them back. -/
def Holds (s : InstallationHost) (entries : SlotContents) : Prop :=
  ∀ entry ∈ entries, (s.slot entry.1).entry = .settled entry.2

/-- No power loss changes the slot. -/
def Settled (s : InstallationHost) (name : String) : Prop :=
  (s.slot name).entry = .settled (s.slot name).entry.visible

/-- A journal of the transaction outlives a power loss. -/
def Durably (s : InstallationHost) (value : InstallationJournal) : Prop :=
  ∃ kept, s.journal.entry.stored = some kept ∧ value.Same kept

/-- What a transaction keeps of the host at every step. -/
structure Coherent (s : InstallationHost) : Prop where
  visible : ∀ value, s.journal.entry.visible = some value → s.Covered value
  stored : ∀ value, s.journal.entry.stored = some value → s.Covered value
  settled : ∀ name, (∀ value, s.journal.entry.visible = some value →
    ¬ value.Concerns name ∨ value.phase = .committed) → s.Settled name
  durable : ∀ value, s.journal.entry.visible = some value →
    s.Durably value ∨ (s.Holds value.before ∧ s.owner ≠ some value.id)
  drawn : ∀ value, s.journal.entry.visible = some value ∨ s.journal.entry.stored = some value →
    value.id ∈ s.drawn
  creator : ∀ id, s.owner = some id → id ∈ s.drawn

/-- A step that changes no entry, no owner and no id keeps it. -/
theorem Coherent.congr {s t : InstallationHost} (coherent : s.Coherent)
    (slots : ∀ name, (t.slot name).entry = (s.slot name).entry) (journal : t.journal.entry = s.journal.entry)
    (owner : t.owner = s.owner) (drawn : ∀ id ∈ s.drawn, id ∈ t.drawn) : t.Coherent := by
  have covered : ∀ value, s.Covered value → t.Covered value := fun value held name concerns =>
    slots name ▸ held name concerns
  refine ⟨fun value found => covered value (coherent.visible value (journal ▸ found)),
    fun value found => covered value (coherent.stored value (journal ▸ found)),
    fun name free => ?_, fun value found => ?_, fun value found => ?_, fun id found => ?_⟩
  · unfold Settled
    rw [slots name]
    exact coherent.settled name fun value found => free value (journal ▸ found)
  · rcases coherent.durable value (journal ▸ found) with ⟨kept, stored, same⟩ | ⟨holds, other⟩
    · exact .inl ⟨kept, journal ▸ stored, same⟩
    · exact .inr ⟨fun entry member => (slots entry.1).trans (holds entry member), owner ▸ other⟩
  · exact drawn _ (coherent.drawn value (journal ▸ found))
  · exact drawn id (coherent.creator id (owner ▸ found))

/-- A step on a slot of an open and durable transaction keeps it, as long as the slot gets contents of
the journal. -/
theorem Coherent.setSlot {s : InstallationHost} (coherent : s.Coherent) {value : InstallationJournal}
    {name : String} {contents : Option String} (found : s.journal.entry.visible = some value)
    (uncommitted : value.phase ≠ .committed) (fits : value.Fits name contents) (durable : s.Durably value)
    {file : AtomicFile (Option String)}
    (entry : file.entry = (s.slot name).entry ∨ file.entry = (s.slot name).entry.put contents ∨
      file.entry = .settled contents) : ((slotFile name).set s file).Coherent := by
  obtain ⟨kept, stored, same⟩ := durable
  have both : ∀ journal : InstallationJournal, s.Covered journal → journal.Fits name contents →
      ((slotFile name).set s file).Covered journal := by
    intro journal covered fit other concerns
    show Durable.Both _ (if other = name then file else s.slot other).entry
    split
    · subst other
      rcases entry with entry | entry | entry <;> rw [entry]
      · exact covered name concerns
      · exact (covered name concerns).put fit
      · exact ⟨fit, fit⟩
    · exact covered other concerns
  refine ⟨fun journal seen => ?_, fun journal seen => ?_, fun other free => ?_, fun journal seen => ?_,
    coherent.drawn, coherent.creator⟩
  · cases found.symm.trans seen
    exact both value (coherent.visible value found) fits
  · cases stored.symm.trans seen
    exact both kept (coherent.stored kept stored) (same.fits fits)
  · have elsewhere : other ≠ name := by
      rintro rfl
      rcases free value found with never | committed
      · exact never fits.concerns
      · exact uncommitted committed
    show (if other = name then file else s.slot other).entry = _
    rw [if_neg elsewhere]
    have settled := coherent.settled other free
    unfold Settled at settled
    rw [settled]
    show _ = Durable.settled (if other = name then file else s.slot other).entry.visible
    rw [if_neg elsewhere, settled]
  · cases found.symm.trans seen
    exact .inl ⟨kept, stored, same⟩

end InstallationHost

/-- What the steps of a transaction need beyond coherence. A slot is written with contents of the journal,
and unless that changes nothing the journal is durable; once the owner of an initial installation exists,
the contents are the new ones. Keys and owner are made under a durable journal. The journal is unlinked
over the new contents of a committed transaction or over the old ones of an ingress change. -/
def InstallationSite.Needs : InstallationSite → InstallationHost → Prop
  | .renameSlot name contents, s => WritesSlot name (some contents) s
  | .unlinkSlot name, s => WritesSlot name none s
  | .ensureSecrets, s => ∃ value, s.journal.entry.visible = some value ∧ s.Durably value
  | .createOwner, s => ∃ value, s.journal.entry.visible = some value ∧ s.Durably value
  | .unlinkJournal _, s => ∀ value, s.journal.entry.visible = some value →
      value.phase = .committed ∧ s.Holds value.after ∨ value.kind = .ingress ∧ s.Holds value.before
  | _, _ => True
where
  /-- The condition on a write of a slot. -/
  WritesSlot (name : String) (contents : Option String) (s : InstallationHost) : Prop :=
    ∃ value, s.journal.entry.visible = some value ∧ value.Fits name contents ∧
      (s.Durably value ∨ (s.slot name).entry = .settled contents) ∧
      (value.kind = .initial → s.owner = some value.id → (name, contents) ∈ value.after)

/-- The condition at a step. -/
def InstallationSite.Meets (site : InstallationSite) (s : InstallationHost) : Prop :=
  s.Coherent ∧ site.Needs s

/-- Nothing but file slots changed. -/
structure InstallationHost.Frame (s t : InstallationHost) : Prop where
  journal : t.journal.entry = s.journal.entry
  owner : t.owner = s.owner
  drawn : t.drawn = s.drawn

theorem InstallationHost.Frame.durably {s t : InstallationHost} (frame : s.Frame t)
    {value : InstallationJournal} (durable : s.Durably value) : t.Durably value := by
  obtain ⟨kept, stored, same⟩ := durable
  exact ⟨kept, frame.journal ▸ stored, same⟩

section Rules

open ServerInstallStore

variable {s : InstallationHost} {E : InstallationError → InstallationHost → Prop}
  {allowed : InstallationSite → Reply InstallationAnswer → Prop}

theorem wp_installationCall {Q : Unit → InstallationHost → Prop} {site : InstallationSite}
    (coherent : s.Coherent) (needs : site.Needs s) (fails : ∀ error, E error s) (returns : Q () s) :
    (installationCall site).wp allowed Q E InstallationSite.Meets s :=
  Process.wp_ask ⟨coherent, needs⟩ fails fun _ _ _ => returns

theorem wp_checkInstallationUnits {units : List String} {expected : Bool} {error : InstallationError}
    (coherent : s.Coherent) (fails : ∀ error, E error s) :
    (checkInstallationUnits units expected error).wp allowed (fun _ t => t = s) E
      InstallationSite.Meets s := by
  refine Process.wp_each (P := (· = s)) (fun unit _ t same => ?_) rfl
  subst same
  refine Process.wp_bind.mpr (Process.wp_ask ⟨coherent, trivial⟩ fails fun answer value _ => ?_)
  exact Process.wp_require.mpr ⟨fun _ => rfl, fun _ => fails _⟩

theorem wp_stopUnits {units : List String} (coherent : s.Coherent) (fails : ∀ error, E error s) :
    (stopUnits units).wp allowed (fun _ t => t = s) E InstallationSite.Meets s := by
  refine Process.wp_bind.mpr ?_
  refine (Process.wp_each (P := (· = s)) (fun unit _ t same => ?_) rfl).mono ?_
    (fun _ _ held => held) fun _ _ held => held
  · subst same
    exact wp_installationCall coherent trivial fails rfl
  · rintro _ s rfl
    exact wp_checkInstallationUnits coherent fails

theorem wp_read {Q : Option String → InstallationHost → Prop} {name : String} (coherent : s.Coherent)
    (fails : ∀ error, E error s) (returns : Q (s.slot name).entry.visible s) :
    (read name).wp allowed Q E InstallationSite.Meets s := by
  refine Process.wp_ask ⟨coherent, trivial⟩ fails fun _ value found => ?_
  split at found
  · cases found
    exact returns
  · cases found

theorem wp_snapshotFiles {names : List String} (coherent : s.Coherent) (fails : ∀ error, E error s) :
    (snapshotFiles names).wp allowed
      (fun entries t => t = s ∧ entries = names.map fun name => (name, (s.slot name).entry.visible))
      E InstallationSite.Meets s := by
  induction names with
  | nil => exact ⟨rfl, rfl⟩
  | cons name rest ih =>
    refine Process.wp_bind.mpr (wp_read coherent fails ?_)
    refine Process.wp_bind.mpr (ih.mono ?_ (fun _ _ held => held) fun _ _ held => held)
    rintro others t ⟨rfl, rfl⟩
    exact ⟨rfl, rfl⟩

/-- A snapshot that equals the entries shows them in the slots. -/
theorem holds_of_snapshot {entries : SlotContents} (settled : ∀ entry ∈ entries, s.Settled entry.1)
    (equal : (entries.map Prod.fst).map (fun name => (name, (s.slot name).entry.visible)) = entries) :
    s.Holds entries := by
  intro entry member
  rw [← equal, List.map_map] at member
  obtain ⟨known, listed, same⟩ := List.mem_map.mp member
  rw [← same]
  exact settled known listed

theorem wp_readJournal {Q : Option InstallationJournal → InstallationHost → Prop}
    (coherent : s.Coherent) (fails : ∀ error, E error s)
    (returns : ∀ value, s.journal.entry.visible = value → Q value s) :
    (journal).wp allowed Q E InstallationSite.Meets s := by
  refine Process.wp_bind.mpr (wp_installationCall coherent trivial fails ?_)
  refine Process.wp_ask ⟨coherent, trivial⟩ fails fun _ value found => ?_
  cases seen : s.journal.entry.visible with
  | none =>
    simp only [seen, Except.ok.injEq] at found
    exact returns value (seen.trans found)
  | some known =>
    simp only [seen] at found
    split at found
    · split at found
      · cases found
        exact returns _ seen
      · cases found
    · cases found

theorem wp_ownerState {Q : OwnerState → InstallationHost → Prop} {kind : InstallationKind} {id : String}
    (coherent : s.Coherent) (fails : ∀ error, E error s)
    (returns : ∀ owner, (kind = .initial → (owner = .ours ↔ s.owner = some id)) → Q owner s) :
    (ownerState kind id).wp allowed Q E InstallationSite.Meets s := by
  refine Process.wp_ask ⟨coherent, trivial⟩ fails fun answer owner found => ?_
  cases kind with
  | ingress =>
    cases found
    exact returns _ (by simp)
  | initial =>
    cases made : s.owner with
    | none =>
      simp only [made, Except.ok.injEq] at found
      exact returns owner fun _ => by simp [← found, made]
    | some creator =>
      simp only [made, Except.ok.injEq] at found
      refine returns owner fun _ => ?_
      rw [← found, made]
      by_cases same : creator = id <;> simp [same]

theorem wp_removeStale {α : Type} {field : Field InstallationHost (AtomicFile α)}
    {inspect discard : InstallationSite} (start : inspect.Meets s ∧ (∀ error, E error s))
    {Q : Unit → InstallationHost → Prop} (unchanged : Q () s)
    (same : ∀ file, file.entry = (field.get s).entry → discard.Meets (field.set s file) ∧
      (∀ error, E error (field.set s file)) ∧ Q () (field.set s file)) :
    (removeStale field inspect discard).wp allowed Q E InstallationSite.Meets s := by
  refine Process.wp_bind.mpr (Process.wp_ask start.1 start.2 fun _ found _ => ?_)
  refine Process.wp_ite.mpr ⟨fun _ => ?_, fun _ => unchanged⟩
  have dropped := same (field.get s).discard rfl
  have here := same (field.get s) rfl
  rw [field.set_get] at here
  exact Process.wp_modify here.1 here.2.1 dropped.2.1 dropped.2.2

/-- A slot whose entry is what it was leaves everything as it was. -/
theorem InstallationHost.Coherent.sameSlot (coherent : s.Coherent) {name : String}
    {file : AtomicFile (Option String)} (same : file.entry = (s.slot name).entry) :
    ((slotFile name).set s file).Coherent := by
  refine coherent.congr (fun other => ?_) rfl rfl fun _ member => member
  show (if other = name then file else s.slot other).entry = _
  split
  · subst other
    exact same
  · rfl

theorem wp_write {value : InstallationJournal} {name : String} {contents : Option String}
    (coherent : s.Coherent) (found : s.journal.entry.visible = some value)
    (uncommitted : value.phase ≠ .committed) (fits : value.Fits name contents)
    (durable : s.Durably value ∨ (s.slot name).entry = .settled contents)
    (forward : value.kind = .initial → s.owner = some value.id → (name, contents) ∈ value.after) :
    (write name contents).wp allowed
      (fun _ t => t.Coherent ∧ s.Frame t ∧ (t.slot name).entry = .settled contents ∧
        ∀ other, other ≠ name → t.slot other = s.slot other)
      (fun _ t => t.Coherent ∧ s.Frame t) InstallationSite.Meets s := by
  have frame : ∀ file, s.Frame ((slotFile name).set s file) := fun _ => ⟨rfl, rfl, rfl⟩
  have others : ∀ file other, other ≠ name → ((slotFile name).set s file).slot other = s.slot other :=
    fun _ _ elsewhere => if_neg elsewhere
  have here : ∀ file, (((slotFile name).set s file).slot name) = file := fun _ => if_pos rfl
  -- the three states of the entry
  have kept : ∀ file, (file.entry = (s.slot name).entry ∨ file.entry = (s.slot name).entry.put contents ∨
      file.entry = .settled contents) → ((slotFile name).set s file).Coherent := by
    intro file entry
    rcases durable with durable | written
    · exact coherent.setSlot found uncommitted fits durable entry
    · refine coherent.sameSlot ?_
      rcases entry with entry | entry | entry
      · exact entry
      · rw [entry, written]
        rfl
      · rw [entry, written]
  have writes : ∀ file, file.entry = (s.slot name).entry →
      InstallationSite.Needs.WritesSlot name contents ((slotFile name).set s file) := by
    intro file same
    refine ⟨value, found, fits, durable.imp (frame file).durably fun written => ?_, forward⟩
    rw [here]
    exact same.trans written
  have fails : ∀ (error : InstallationError) file, (file.entry = (s.slot name).entry ∨
      file.entry = (s.slot name).entry.put contents ∨ file.entry = .settled contents) →
      ((slotFile name).set s file).Coherent ∧ s.Frame ((slotFile name).set s file) :=
    fun _ file entry => ⟨kept file entry, frame file⟩
  have start : (slotFile name).set s (s.slot name) = s := (slotFile name).set_get s
  have failsHere : ∀ _ : InstallationError, s.Coherent ∧ s.Frame s := fun _ => ⟨coherent, rfl, rfl, rfl⟩
  refine Process.wp_bind.mpr (wp_read coherent failsHere ?_)
  cases contents with
  | none =>
    have writesHere := writes (s.slot name) rfl
    rw [start] at writesHere
    refine Process.wp_unlinkFile ⟨coherent, writesHere⟩ failsHere ?_ ?_
    · intro file entry
      exact ⟨⟨kept file (.inr (.inl entry)), trivial⟩, fun error => fails error file (.inr (.inl entry))⟩
    · intro file entry
      refine ⟨fun error => fails error file (.inr (.inr entry)), kept file (.inr (.inr entry)), frame file,
        ?_, others file⟩
      rw [here]
      exact entry
  | some text =>
    have replaced : ∀ file, file.entry = (s.slot name).entry →
        (Process.replaceFile (slotFile name) (.createSlotTemporary name) (.renameSlot name text)
          (.syncSlot name) .temporaryExists (some text) : InstallationProcess Unit).wp allowed
          (fun _ t => t.Coherent ∧ s.Frame t ∧ (t.slot name).entry = .settled (some text) ∧
            ∀ other, other ≠ name → t.slot other = s.slot other)
          (fun _ t => t.Coherent ∧ s.Frame t) InstallationSite.Meets ((slotFile name).set s file) := by
      intro file same
      have got : (slotFile name).get ((slotFile name).set s file) = file := (slotFile name).get_set s file
      refine Process.wp_replaceFile ⟨kept file (.inl same), trivial⟩
        (fun error => fails error file (.inl same)) ?_ ?_ ?_
      · intro next entry
        rw [got] at entry
        rw [(slotFile name).set_set]
        have unchanged := entry.trans same
        exact ⟨⟨kept next (.inl unchanged), writes next unchanged⟩,
          fun error => fails error next (.inl unchanged)⟩
      · intro next entry
        rw [got, same] at entry
        rw [(slotFile name).set_set]
        exact ⟨⟨kept next (.inr (.inl entry)), trivial⟩, fun error => fails error next (.inr (.inl entry))⟩
      · intro next entry
        rw [(slotFile name).set_set]
        refine ⟨fun error => fails error next (.inr (.inr entry)), kept next (.inr (.inr entry)),
          frame next, ?_, others next⟩
        rw [here]
        exact entry
    have replacedHere := replaced (s.slot name) rfl
    rw [start] at replacedHere
    have inspected : (InstallationSite.inspectSlotTemporary name).Meets s := ⟨coherent, trivial⟩
    refine Process.wp_bind.mpr (wp_removeStale ⟨inspected, failsHere⟩ replacedHere fun file same => ?_)
    exact ⟨⟨kept file (.inl same), trivial⟩, fun error => fails error file (.inl same), replaced file same⟩

theorem wp_replace {value : InstallationJournal} {entries : SlotContents} (coherent : s.Coherent)
    (found : s.journal.entry.visible = some value) (uncommitted : value.phase ≠ .committed)
    (fits : ∀ entry ∈ entries, value.Fits entry.1 entry.2)
    (durable : s.Durably value ∨ s.Holds entries)
    (forward : value.kind = .initial → s.owner = some value.id → ∀ entry ∈ entries, entry ∈ value.after) :
    (replace entries).wp allowed
      (fun _ t => t.Coherent ∧ s.Frame t ∧ ∀ entry ∈ entries, t.Settled entry.1)
      (fun _ t => t.Coherent ∧ s.Frame t) InstallationSite.Meets s := by
  refine (Process.wp_each_done
    (P := fun t => t.Coherent ∧ s.Frame t ∧ (t.Durably value ∨ t.Holds entries))
    (D := fun entry t => t.Settled entry.1) (fun entry member t held => ?_)
    ⟨coherent, ⟨rfl, rfl, rfl⟩, durable⟩).mono ?_ (fun _ _ held => held) fun _ _ held => held
  · obtain ⟨kept, frame, safe⟩ := held
    refine (wp_write kept (frame.journal ▸ found) uncommitted (fits entry member)
      (safe.imp id fun holds => holds entry member) ?_).mono ?_ ?_ fun _ _ held => held
    · exact fun initial ours => forward initial (frame.owner ▸ ours) entry member
    · rintro _ u ⟨after, moved, written, others⟩
      have framed : s.Frame u := ⟨moved.journal.trans frame.journal, moved.owner.trans frame.owner,
        moved.drawn.trans frame.drawn⟩
      refine ⟨⟨after, framed, ?_⟩, ?_, ?_⟩
      · refine safe.imp moved.durably fun holds other listed => ?_
        by_cases same : other.1 = entry.1
        · have before := holds entry member
          rw [← same, holds other listed] at before
          rw [same, written, ← before]
        · rw [others other.1 same]
          exact holds other listed
      · unfold InstallationHost.Settled
        rw [written]
        rfl
      · intro other settled
        unfold InstallationHost.Settled at settled ⊢
        by_cases same : other.1 = entry.1
        · rw [same, written]
          rfl
        · rw [others other.1 same]
          exact settled
    · rintro _ u ⟨after, moved⟩
      exact ⟨after, moved.journal.trans frame.journal, moved.owner.trans frame.owner,
        moved.drawn.trans frame.drawn⟩
  · rintro _ t ⟨⟨kept, frame, _⟩, settled, _⟩
    exact ⟨kept, frame, settled⟩

/-- The journal may change, nothing else. -/
structure InstallationHost.SameFiles (s t : InstallationHost) : Prop where
  slot : t.slot = s.slot
  owner : t.owner = s.owner
  drawn : t.drawn = s.drawn

/-- What the host must be like for a journal to be saved. -/
structure InstallationHost.Admits (s : InstallationHost) (value : InstallationJournal) : Prop where
  covered : s.Covered value
  settled : ∀ name, ¬ value.Concerns name ∨ value.phase = .committed → s.Settled name
  durable : s.Durably value ∨ (s.Holds value.before ∧ s.owner ≠ some value.id)
  drawn : value.id ∈ s.drawn

/-- Saving an admitted journal keeps the host coherent before and after the sync. -/
theorem InstallationHost.Coherent.saveJournal (coherent : s.Coherent) {value : InstallationJournal}
    (admits : s.Admits value) {file : AtomicFile (Option InstallationJournal)}
    (entry : file.entry = s.journal.entry ∨ file.entry = s.journal.entry.put (some value) ∨
      file.entry = .settled (some value)) : (installationJournalFile.set s file).Coherent := by
  have visible : ∀ journal, file.entry.visible = some journal →
      journal = value ∨ s.journal.entry.visible = some journal := by
    intro journal seen
    rcases entry with entry | entry | entry <;> rw [entry] at seen
    · exact .inr seen
    · exact .inl (Option.some.inj seen).symm
    · exact .inl (Option.some.inj seen).symm
  have stored : ∀ journal, file.entry.stored = some journal →
      journal = value ∨ s.journal.entry.stored = some journal := by
    intro journal seen
    rcases entry with entry | entry | entry <;> rw [entry] at seen
    · exact .inr seen
    · exact .inr seen
    · exact .inl (Option.some.inj seen).symm
  refine ⟨fun journal seen => ?_, fun journal seen => ?_, fun name free => ?_, fun journal seen => ?_,
    fun journal seen => ?_, coherent.creator⟩
  · rcases visible journal seen with rfl | before
    · exact admits.covered
    · exact coherent.visible journal before
  · rcases stored journal seen with rfl | before
    · exact admits.covered
    · exact coherent.stored journal before
  · rcases entry with entry | entry | entry
    · exact coherent.settled name fun journal found => free journal ((congrArg _ entry).trans found)
    · exact admits.settled name (free value (congrArg Durable.visible entry))
    · exact admits.settled name (free value (congrArg Durable.visible entry))
  · rcases entry with entry | entry | entry
    · rcases coherent.durable journal ((congrArg Durable.visible entry).symm.trans seen) with
        ⟨kept, found, same⟩ | holds
      · exact .inl ⟨kept, (congrArg Durable.stored entry).trans found, same⟩
      · exact .inr holds
    · obtain rfl := Option.some.inj ((congrArg Durable.visible entry).symm.trans seen)
      rcases admits.durable with ⟨kept, found, same⟩ | holds
      · exact .inl ⟨kept, (congrArg Durable.stored entry).trans found, same⟩
      · exact .inr holds
    · obtain rfl := Option.some.inj ((congrArg Durable.visible entry).symm.trans seen)
      exact .inl ⟨value, congrArg Durable.stored entry, value.same_refl⟩
  · rcases seen with seen | seen
    · rcases visible journal seen with rfl | before
      · exact admits.drawn
      · exact coherent.drawn journal (.inl before)
    · rcases stored journal seen with rfl | before
      · exact admits.drawn
      · exact coherent.drawn journal (.inr before)

/-- The journal of an open transaction may be saved again in an open phase. -/
theorem InstallationHost.Coherent.admits (coherent : s.Coherent) {value next : InstallationJournal}
    (found : s.journal.entry.visible = some value) (same : value.Same next)
    (settled : next.phase = .committed → ∀ name, s.Settled name)
    (uncommitted : next.phase ≠ .committed → ∀ name, ¬ next.Concerns name → s.Settled name) :
    s.Admits next := by
  refine ⟨fun name concerns => ?_, fun name free => ?_, ?_, ?_⟩
  · have both := coherent.visible value found name (same.symm.concerns concerns)
    exact ⟨same.fits both.1, same.fits both.2⟩
  · by_cases committed : next.phase = .committed
    · exact settled committed name
    · exact uncommitted committed name (free.resolve_right committed)
  · have outer : next.before = value.before ∧ next.id = value.id := by rw [same]; exact ⟨rfl, rfl⟩
    rcases coherent.durable value found with ⟨kept, stored, alike⟩ | holds
    · exact .inl ⟨kept, stored, same.symm.trans alike⟩
    · rw [outer.1, outer.2]
      exact .inr holds
  · have outer : next.id = value.id := by rw [same]
    exact outer ▸ coherent.drawn value (.inl found)

theorem wp_saveInstallationJournal {origin : InstallationOrigin} {value : InstallationJournal}
    (coherent : s.Coherent) (admits : s.Admits value) :
    (saveJournal origin value).wp allowed
      (fun _ t => t.Coherent ∧ s.SameFiles t ∧ t.journal.entry = .settled (some value) ∧
        validateInstallationJournal value = true)
      (fun _ t => t.Coherent ∧ s.SameFiles t ∧
        (t.journal.entry = s.journal.entry ∨ t.journal.entry.visible = some value))
      InstallationSite.Meets s := by
  have failsHere : ∀ _ : InstallationError, s.Coherent ∧ s.SameFiles s ∧
      (s.journal.entry = s.journal.entry ∨ s.journal.entry.visible = some value) :=
    fun _ => ⟨coherent, ⟨rfl, rfl, rfl⟩, .inl rfl⟩
  refine Process.wp_bind.mpr (wp_installationCall coherent trivial failsHere ?_)
  refine Process.wp_bind.mpr (Process.wp_require.mpr ⟨fun valid => ?_, fun _ => failsHere .invalidJournal⟩)
  refine Process.wp_bind.mpr (Process.wp_ask ⟨coherent, trivial⟩ failsHere fun _ _ _ => ?_)
  have kept : ∀ file, (file.entry = s.journal.entry ∨ file.entry = s.journal.entry.put (some value) ∨
      file.entry = .settled (some value)) → (installationJournalFile.set s file).Coherent :=
    fun file entry => coherent.saveJournal admits entry
  have files : ∀ file, s.SameFiles (installationJournalFile.set s file) := fun _ => ⟨rfl, rfl, rfl⟩
  have fails : ∀ (_ : InstallationError) file, (file.entry = s.journal.entry ∨
      file.entry = s.journal.entry.put (some value) ∨ file.entry = .settled (some value)) →
      (installationJournalFile.set s file).Coherent ∧ s.SameFiles (installationJournalFile.set s file) ∧
        (file.entry = s.journal.entry ∨ file.entry.visible = some value) := by
    intro _ file entry
    refine ⟨kept file entry, files file, ?_⟩
    rcases entry with entry | entry | entry
    · exact .inl entry
    · exact .inr (congrArg Durable.visible entry)
    · exact .inr (congrArg Durable.visible entry)
  have replaced : ∀ file, file.entry = s.journal.entry →
      (Process.replaceFile installationJournalFile .createJournalTemporary (.renameJournal origin value)
        (.syncJournal origin value.phase) .temporaryExists (some value) : InstallationProcess Unit).wp allowed
        (fun _ t => t.Coherent ∧ s.SameFiles t ∧ t.journal.entry = .settled (some value) ∧
          validateInstallationJournal value = true)
        (fun _ t => t.Coherent ∧ s.SameFiles t ∧
          (t.journal.entry = s.journal.entry ∨ t.journal.entry.visible = some value))
        InstallationSite.Meets (installationJournalFile.set s file) := by
    intro file same
    refine Process.wp_replaceFile ⟨kept file (.inl same), trivial⟩
      (fun error => fails error file (.inl same)) ?_ ?_ ?_
    · intro next entry
      have unchanged := entry.trans same
      exact ⟨⟨kept next (.inl unchanged), trivial⟩, fun error => fails error next (.inl unchanged)⟩
    · intro next entry
      have put : next.entry = s.journal.entry.put (some value) := by rw [entry, ← same]; rfl
      exact ⟨⟨kept next (.inr (.inl put)), trivial⟩, fun error => fails error next (.inr (.inl put))⟩
    · intro next entry
      exact ⟨fun error => fails error next (.inr (.inr entry)), kept next (.inr (.inr entry)), files next,
        entry, valid⟩
  have inspected : InstallationSite.inspectJournalTemporary.Meets s := ⟨coherent, trivial⟩
  refine Process.wp_bind.mpr (wp_removeStale ⟨inspected, failsHere⟩ (replaced s.journal rfl)
    fun file same => ?_)
  exact ⟨⟨kept file (.inl same), trivial⟩, fun error => fails error file (.inl same), replaced file same⟩

theorem wp_clearInstallation {origin : InstallationOrigin} (coherent : s.Coherent)
    (needs : (InstallationSite.unlinkJournal origin).Needs s) (settled : ∀ name, s.Settled name) :
    (clear origin).wp allowed
      (fun _ t => t.Coherent ∧ s.SameFiles t ∧ t.journal.entry = .settled none)
      (fun _ t => t.Coherent) InstallationSite.Meets s := by
  have kept : ∀ file : AtomicFile (Option InstallationJournal), file.entry.visible = none →
      (file.entry.stored = none ∨ file.entry.stored = s.journal.entry.stored) →
      (installationJournalFile.set s file).Coherent := by
    intro file gone left
    have stored : ∀ journal, file.entry.stored = some journal → s.journal.entry.stored = some journal := by
      intro journal found
      rcases left with left | left
      · rw [left] at found
        cases found
      · exact left ▸ found
    refine ⟨fun journal found => ?_, fun journal found => coherent.stored journal (stored journal found),
      fun name _ => settled name, fun journal found => ?_, fun journal found => ?_, coherent.creator⟩
    · cases gone.symm.trans found
    · cases gone.symm.trans found
    · rcases found with found | found
      · cases gone.symm.trans found
      · exact coherent.drawn journal (.inr (stored journal found))
  refine Process.wp_bind.mpr (wp_installationCall coherent trivial (fun _ => coherent) ?_)
  refine Process.wp_unlinkFile ⟨coherent, needs⟩ (fun _ => coherent) ?_ ?_
  · intro file entry
    have held := kept file (by rw [entry]; rfl) (.inr (by rw [entry]; rfl))
    exact ⟨⟨held, trivial⟩, fun _ => held⟩
  · intro file entry
    have held := kept file (by rw [entry]; rfl) (.inl (by rw [entry]; rfl))
    exact ⟨fun _ => held, held, ⟨rfl, rfl, rfl⟩, entry⟩

end Rules

end LatexRenderer
