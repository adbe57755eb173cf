import LatexRenderer.Model.Deploy.ImageManager

/-! # Activations of images

Whatever stops a manager, the journal of an activation tells how to go on: `renderer.env` names its new or
its old image, and both states that it holds are right about their images. So every start of the manager
comes to a consistent host. Two things break this while the manager keeps running: a restoration that was
incomplete, once another activation writes over its journal, and one that counts as complete although the
state file still names the new image.
-/

namespace LatexRenderer

open Machine

section Environment

variable {contents : RendererEnv} {image : ImageId}

theorem imageLine_image : imageLine (imageKey ++ image.value) = some image.value := by
  obtain ⟨value, nonempty, trimmed⟩ := image
  cases value with
  | nil => exact absurd rfl nonempty
  | cons c rest =>
    have prefixed : imageKey.isPrefixOf (imageKey ++ c :: rest) = true :=
      List.isPrefixOf_iff_prefix.mpr (List.prefix_append _ _)
    simp [imageLine, prefixed]

theorem imageLine_of_not_prefix {line : List Char} (other : imageKey.isPrefixOf line = false) :
    imageLine line = none := by
  unfold imageLine
  rw [other]

theorem findSome_replaceImageLine (found : contents.any imageKey.isPrefixOf = true) :
    (replaceImageLine (imageKey ++ image.value) contents).findSome? imageLine = some image.value := by
  induction contents with
  | nil => cases found
  | cons first rest ih =>
    unfold replaceImageLine
    split
    · simp [imageLine_image]
    · next other =>
      have here : imageLine first = none := imageLine_of_not_prefix (Bool.eq_false_iff.mpr other)
      have later : rest.any imageKey.isPrefixOf = true := by simpa [other] using found
      simp [here, ih later]

/-- What is stripped from the end brings no line with an image. -/
theorem findSome_stripEnv (absent : contents.any imageKey.isPrefixOf = false) :
    (stripEnv contents).findSome? imageLine = none := by
  have none_of : ∀ line ∈ contents, imageKey.isPrefixOf line = false := fun line member =>
    Bool.eq_false_iff.mpr (List.any_eq_false.mp absent line member)
  have kept : ∀ line ∈ contents.reverse.dropWhile fun line => line.all envSpace, line ∈ contents := fun line member =>
    List.mem_reverse.mp ((List.dropWhile_suffix _).subset member)
  unfold stripEnv
  split
  · rfl
  · next last before same =>
    rw [List.findSome?_eq_none_iff]
    intro line member
    rcases List.mem_append.mp member with earlier | final
    · exact imageLine_of_not_prefix (none_of _ (kept _ (by simp [same, List.mem_reverse.mp earlier])))
    · obtain rfl := List.mem_singleton.mp final
      refine imageLine_of_not_prefix (Bool.eq_false_iff.mpr fun prefixed => ?_)
      have whole : imageKey <+: last := (List.isPrefixOf_iff_prefix.mp prefixed).trans (by
        rw [← List.reverse_suffix, List.reverse_reverse]
        exact List.dropWhile_suffix _)
      have mine := none_of last (kept _ (by simp [same]))
      exact Bool.false_ne_true (mine.symm.trans (List.isPrefixOf_iff_prefix.mpr whole))

theorem rendererImageFromEnv_withImage :
    rendererImageFromEnv (rendererEnvWithImage contents image) = image.value := by
  unfold rendererImageFromEnv rendererEnvWithImage
  split
  · next found => simp [findSome_replaceImageLine found, image.trimmed]
  · next absent =>
    have stripped := findSome_stripEnv (Bool.eq_false_iff.mpr absent)
    simp [List.findSome?_append, stripped, imageLine_image, image.trimmed]

end Environment

section Journals

variable {inventories : List Char → ImageInventory} {journal : ActivationJournal} {s : ImageHost}

/-- What holds of a host while its journal is this one. -/
structure ActivationJournal.Sound (journal : ActivationJournal) (host : ImageHost) : Prop where
  old : rendererImageFromEnv journal.oldEnv = journal.previousState.current.runtimeImageId.value
  new : journal.nextState.current.runtimeImageId = journal.newImageId
  env : host.env = journal.oldEnv ∨ host.env = rendererEnvWithImage journal.oldEnv journal.newImageId

/-- The activation of the journal is fully restored. -/
structure ActivationJournal.Restored (inventories : List Char → ImageInventory) (journal : ActivationJournal)
    (host : ImageHost) : Prop where
  env : rendererImageFromEnv host.env = rendererImageFromEnv journal.oldEnv
  recorded : host.state.current = journal.previousState.current
  described : host.Describes inventories journal.previousState.current.runtimeImageId.value

/-- The activation of the journal is committed. -/
structure ActivationJournal.Committed (inventories : List Char → ImageInventory) (journal : ActivationJournal)
    (host : ImageHost) : Prop where
  env : rendererImageFromEnv host.env = journal.newImageId.value
  recorded : host.state.current = journal.nextState.current
  described : host.Describes inventories journal.newImageId.value

/-- Without a journal the host is consistent, and with one the journal is sound. -/
structure Recoverable (inventories : List Char → ImageInventory) (host : ImageHost) : Prop where
  settled : host.journal = none → host.Consistent inventories
  pending : ∀ journal, host.journal = some journal → journal.Sound host

/-- The host between two requests to a manager. -/
structure Calm (inventories : List Char → ImageInventory) (host : ImageHost) : Prop where
  recoverable : Recoverable inventories host
  held : host.journal = none → host.memory.current = host.state.current
  restored : host.incomplete = false → ∀ journal, host.journal = some journal →
    journal.Restored inventories host
  previous : ∀ journal, host.journal = some journal → host.memory.current = journal.previousState.current
  stuck : host.incomplete = true → host.journal ≠ none

/-- An answer that breaks the activations: one at the write of a journal in a process whose last restoration was
incomplete, or, at the end of a complete restoration, an error of `persistState(previousState)` while the
state file names the new image. A step that takes effect does not fail. -/
def breaksActivation : ImageSite → ImageHost → Reply ImageAnswer → Prop
  | _, _, .lost _ => True
  | .writeJournal, host, _ => host.incomplete = true
  | .persistPrevious true, host, .refused => host.state.current ≠ host.memory.current
  | _, _, _ => False

/-- What has to hold where an activation writes or removes its journal. -/
def JournalStep (inventories : List Char → ImageInventory) : ImageSite → ImageHost → Prop
  | .writeJournal, host => host.incomplete = false → ∀ journal, host.journal = some journal →
      journal.Restored inventories host
  | .removeCommitted, host => ∀ journal, host.journal = some journal → journal.Committed inventories host
  | .removeRecovered true, host => ∀ journal, host.journal = some journal → journal.Committed inventories host
  | .removeRestored, host => ∀ journal, host.journal = some journal → journal.Restored inventories host
  | .removeRecovered false, host => ∀ journal, host.journal = some journal → journal.Restored inventories host
  | _, _ => True

/-- The processes of the manager, with what they promise. -/
abbrev Activates {α : Type} (inventories : List Char → ImageInventory) (p : ImageProcess α)
    (Q : α → ImageHost → Prop) (E : ImageError → ImageHost → Prop) (s : ImageHost) : Prop :=
  p.careful (fun site host reply => ¬ breaksActivation site host reply) Q E
    (fun site host => Recoverable inventories host ∧ JournalStep inventories site host) s

theorem breaksActivation_lost {site : ImageSite} {answer : ImageAnswer} :
    breaksActivation site s (.lost answer) := by
  cases site <;> trivial

theorem activates_modify {Q : Unit → ImageHost → Prop} {E : ImageError → ImageHost → Prop} {site : ImageSite}
    {f : ImageHost → ImageHost} (visit : Recoverable inventories s ∧ JournalStep inventories site s)
    (refused : ¬ breaksActivation site s .refused → E .host s)
    (done : (∀ answer, ¬ breaksActivation site s (.done answer) → Q () (f s))) :
    Activates inventories (Process.modify site f) Q E s :=
  .modify visit (fun _ fine => fine breaksActivation_lost) refused done

/-- The two hosts differ in nothing that an activation is about. -/
structure Alike (s t : ImageHost) : Prop where
  env : t.env = s.env
  packages : t.packages = s.packages
  fonts : t.fonts = s.fonts
  recorded : t.state.current = s.state.current
  journal : t.journal = s.journal
  held : t.memory.current = s.memory.current
  incomplete : t.incomplete = s.incomplete

variable {t : ImageHost}

theorem Alike.describes (alike : Alike s t) {image : List Char} (described : s.Describes inventories image) :
    t.Describes inventories image := ⟨alike.packages.trans described.1, alike.fonts.trans described.2⟩

theorem Alike.sound (alike : Alike s t) (sound : journal.Sound s) : journal.Sound t :=
  ⟨sound.old, sound.new, alike.env ▸ sound.env⟩

theorem Recoverable.alike (recoverable : Recoverable inventories s) (alike : Alike s t) :
    Recoverable inventories t := by
  refine ⟨fun absent => ?_, fun journal there => alike.sound (recoverable.pending journal (alike.journal ▸ there))⟩
  have consistent := recoverable.settled (alike.journal ▸ absent)
  refine ⟨?_, ?_⟩
  · rw [alike.env, alike.recorded]
    exact consistent.recorded
  · rw [alike.recorded]
    exact alike.describes consistent.described

theorem Calm.alike (calm : Calm inventories s) (alike : Alike s t) : Calm inventories t := by
  refine ⟨calm.recoverable.alike alike, fun absent => ?_, fun whole journal there => ?_, fun journal there => ?_,
    fun stuck absent => ?_⟩
  · rw [alike.held, alike.recorded]
    exact calm.held (alike.journal ▸ absent)
  · have restored := calm.restored (alike.incomplete ▸ whole) journal (alike.journal ▸ there)
    exact ⟨by rw [alike.env, restored.env], by rw [alike.recorded, restored.recorded],
      alike.describes restored.described⟩
  · rw [alike.held]
    exact calm.previous journal (alike.journal ▸ there)
  · exact calm.stuck (alike.incomplete ▸ stuck) (alike.journal ▸ absent)

/-- `persistState` changes nothing but what is beside the runtimes. -/
theorem Calm.persist (calm : Calm inventories s) : Calm inventories s.persist := by
  refine ⟨⟨fun absent => ?_, fun journal there => ?_⟩, fun _ => rfl, fun whole journal there => ?_, calm.previous,
    calm.stuck⟩
  · have same : s.memory.current = s.state.current := calm.held absent
    have consistent := calm.recoverable.settled absent
    refine ⟨?_, ?_⟩
    · show rendererImageFromEnv s.env = s.memory.current.runtimeImageId.value
      exact same ▸ consistent.recorded
    · show s.Describes inventories s.memory.current.runtimeImageId.value
      exact same ▸ consistent.described
  · have sound := calm.recoverable.pending journal there
    exact ⟨sound.old, sound.new, sound.env⟩
  · have restored := calm.restored whole journal there
    exact ⟨restored.env, calm.previous journal there, restored.described⟩

end Journals

section Activation

variable {inventories : List Char → ImageInventory} {journal : ActivationJournal} {s t : ImageHost}

/-- The host while the activation of the journal runs. -/
structure Owned (journal : ActivationJournal) (host : ImageHost) : Prop where
  written : host.journal = some journal
  sound : journal.Sound host
  whole : host.incomplete = false

theorem Owned.keep (owned : Owned journal s) (written : t.journal = s.journal) (env : t.env = s.env)
    (whole : t.incomplete = s.incomplete) : Owned journal t :=
  ⟨written.trans owned.written, ⟨owned.sound.old, owned.sound.new, env ▸ owned.sound.env⟩, whole.trans owned.whole⟩

theorem Owned.recoverable (owned : Owned journal s) : Recoverable inventories s := by
  refine ⟨fun absent => ?_, fun other there => ?_⟩
  · cases absent.symm.trans owned.written
  · cases owned.written.symm.trans there
    exact owned.sound

theorem Owned.visit {site : ImageSite} (owned : Owned journal s) (plain : JournalStep inventories site s) :
    Recoverable inventories s ∧ JournalStep inventories site s := ⟨owned.recoverable, plain⟩

theorem Owned.commit (owned : Owned journal s) (committed : journal.Committed inventories s)
    (held : s.memory.current = s.state.current) : Calm inventories s.commit := by
  refine ⟨⟨fun _ => ⟨?_, ?_⟩, fun _ never => (nomatch never)⟩, fun _ => held, fun _ _ never => (nomatch never),
    fun _ never => (nomatch never), fun stuck => ?_⟩
  · show rendererImageFromEnv s.env = s.state.current.runtimeImageId.value
    rw [committed.env, committed.recorded, owned.sound.new]
  · show s.Describes inventories s.state.current.runtimeImageId.value
    rw [committed.recorded, owned.sound.new]
    exact committed.described
  · exact (Bool.false_ne_true (owned.whole.symm.trans stuck)).elim

/-- A restored activation leaves a calm host, whether or not its journal goes. -/
theorem Owned.restore (owned : Owned journal s) (restored : journal.Restored inventories s)
    (held : s.memory.current = journal.previousState.current) :
    Calm inventories s ∧ Calm inventories { s with journal := none } := by
  have recorded := held.trans restored.recorded.symm
  refine ⟨⟨owned.recoverable, fun _ => recorded, fun _ other there => ?_, fun other there => ?_, fun stuck => ?_⟩,
    ⟨⟨fun _ => ⟨?_, ?_⟩, fun _ never => (nomatch never)⟩, fun _ => recorded, fun _ _ never => (nomatch never),
      fun _ never => (nomatch never), fun stuck => ?_⟩⟩
  · cases owned.written.symm.trans there
    exact restored
  · cases owned.written.symm.trans there
    exact held
  · exact (Bool.false_ne_true (owned.whole.symm.trans stuck)).elim
  · show rendererImageFromEnv s.env = s.state.current.runtimeImageId.value
    rw [restored.env, restored.recorded, owned.sound.old]
  · show s.Describes inventories s.state.current.runtimeImageId.value
    rw [restored.recorded]
    exact restored.described
  · exact (Bool.false_ne_true (owned.whole.symm.trans stuck)).elim

/-- The `try` block of an activation, after `renderer.env` names the image. -/
theorem activates_afterEnv (owned : Owned journal s)
    (env : rendererImageFromEnv s.env = journal.newImageId.value) :
    Activates inventories (do
      writeInventory .activation (some (inventories journal.newImageId.value).packages)
        (some (inventories journal.newImageId.value).fonts)
      Process.modify .persistNext fun host => { host with memory := journal.nextState, state := journal.nextState }
      Process.modify .removeCommitted ImageHost.commit : ImageProcess Unit)
      (fun _ => Calm inventories) (fun _ => Owned journal) s := by
  refine .bind (.bind (activates_modify (owned.visit trivial) (fun _ => owned) fun _ _ => ?_))
  have packed := owned.keep (t := { s with packages := some (inventories journal.newImageId.value).packages })
    rfl rfl rfl
  refine activates_modify (packed.visit trivial) (fun _ => packed) fun _ _ => ?_
  have listed := packed.keep (t := { s with
    packages := some (inventories journal.newImageId.value).packages
    fonts := some (inventories journal.newImageId.value).fonts }) rfl rfl rfl
  refine .bind (activates_modify (listed.visit trivial) (fun _ => listed) fun _ _ => ?_)
  have recorded := listed.keep (t := { s with
    packages := some (inventories journal.newImageId.value).packages
    fonts := some (inventories journal.newImageId.value).fonts
    memory := journal.nextState
    state := journal.nextState }) rfl rfl rfl
  have committed : ∀ other, some journal = some other → ActivationJournal.Committed inventories other { s with
      packages := some (inventories journal.newImageId.value).packages
      fonts := some (inventories journal.newImageId.value).fonts
      memory := journal.nextState
      state := journal.nextState } := by
    rintro _ ⟨⟩
    exact ⟨env, rfl, rfl, rfl⟩
  refine activates_modify (recorded.visit fun other there => committed other (owned.written.symm.trans there))
    (fun _ => recorded) fun _ _ => ?_
  exact recorded.commit (committed journal rfl) rfl

theorem activates_performActivation {newEnv : RendererEnv} (owned : Owned journal s)
    (env : s.env = journal.oldEnv) (new : newEnv = rendererEnvWithImage journal.oldEnv journal.newImageId) :
    Activates inventories (performActivation inventories journal newEnv) (fun _ => Calm inventories)
      (fun _ => Owned journal) s := by
  have named : rendererImageFromEnv newEnv = journal.newImageId.value := new ▸ rendererImageFromEnv_withImage
  refine .bind ?_
  by_cases changed : newEnv = journal.oldEnv
  · rw [if_neg (not_not.mpr changed)]
    exact activates_afterEnv owned (by rw [env, ← changed, named])
  · rw [if_pos changed]
    refine .bind (activates_modify (owned.visit trivial) (fun _ => owned) fun _ _ => ?_)
    have moved : Owned journal { s with env := newEnv } :=
      ⟨owned.written, ⟨owned.sound.old, owned.sound.new, .inr new⟩, owned.whole⟩
    exact .ask (moved.visit trivial) (fun _ => moved) fun _ _ _ => activates_afterEnv moved named

theorem activates_restoreActivation {changed : Bool} {image : List Char} (owned : Owned journal s)
    (held : s.memory.current = journal.previousState.current) :
    Activates inventories (restoreActivation journal.oldEnv
      (some (inventories image).packages, some (inventories image).fonts) changed)
      (fun restored t => Owned journal t ∧ t.memory.current = journal.previousState.current ∧
        (restored = true → t.env = journal.oldEnv ∧ t.Describes inventories image))
      (fun _ _ => False) s := by
  have writes : ∀ t : ImageHost, Owned journal t → t.memory.current = journal.previousState.current →
      ∀ earlier : Bool, (earlier = true → t.env = journal.oldEnv) → Activates inventories (do
        let inventoryRestored ← Process.attempt (writeInventory .restoration
          (some (inventories image).packages) (some (inventories image).fonts))
        pure (earlier && inventoryRestored) : ImageProcess Bool)
        (fun restored u => Owned journal u ∧ u.memory.current = journal.previousState.current ∧
          (restored = true → u.env = journal.oldEnv ∧ u.Describes inventories image))
        (fun _ _ => False) t := by
    intro t own current earlier env
    have failed : ∀ u, Owned journal u → u.memory.current = journal.previousState.current →
        Owned journal u ∧ u.memory.current = journal.previousState.current ∧
          ((earlier && false) = true → u.env = journal.oldEnv ∧ u.Describes inventories image) :=
      fun u mine same => ⟨mine, same, fun never => by simp at never⟩
    refine .bind (.attempt (.bind (activates_modify (own.visit trivial) (fun _ => failed t own current) fun _ _ => ?_)))
    have packed := own.keep (t := { t with packages := some (inventories image).packages }) rfl rfl rfl
    refine activates_modify (packed.visit trivial) (fun _ => failed _ packed current) fun _ _ => ?_
    have listed := packed.keep (t := { t with
      packages := some (inventories image).packages
      fonts := some (inventories image).fonts }) rfl rfl rfl
    exact ⟨listed, current, fun both => ⟨env (by simpa using both), rfl, rfl⟩⟩
  have restored : Owned journal { s with env := journal.oldEnv } :=
    ⟨owned.written, ⟨owned.sound.old, owned.sound.new, .inl rfl⟩, owned.whole⟩
  refine .bind (.attempt (activates_modify (owned.visit trivial) (fun _ => .bind ?_) fun _ _ => .bind ?_))
  · rw [if_neg (by simp)]
    exact writes s owned held (false && true) fun never => (nomatch never)
  · cases changed with
    | false => exact writes _ restored held (true && true) fun _ => rfl
    | true =>
      exact .attempt (.ask (restored.visit trivial) (fun _ => writes _ restored held (true && false) fun _ => rfl)
        fun _ _ _ => writes _ restored held (true && true) fun _ => rfl)

theorem activates_abandonActivation {changed : Bool} {error : ImageError} {Q : Unit → ImageHost → Prop}
    (owned : Owned journal s) :
    Activates inventories (do
      abandonActivation journal
        (some (inventories journal.previousState.current.runtimeImageId.value).packages,
          some (inventories journal.previousState.current.runtimeImageId.value).fonts) changed
      throw error : ImageProcess Unit) Q (fun _ => Calm inventories) s := by
  have abandoned : Owned journal { s with memory := journal.previousState } := owned.keep rfl rfl rfl
  refine .bind (.bind (.mark (owned.visit trivial) (.bind ((activates_restoreActivation abandoned rfl).mono
    (fun restored t held => ?_) fun _ _ never => never.elim))))
  obtain ⟨own, current, complete⟩ := held
  cases restored with
  | false =>
    have stuck : ∀ u, Owned journal u → u.memory.current = journal.previousState.current →
        Activates inventories (Process.mark .look fun host => { host with incomplete := true } : ImageProcess Unit)
          (fun _ => Calm inventories) (fun _ => Calm inventories) u := by
      intro u mine same
      refine .mark (mine.visit trivial) ⟨⟨fun absent => ?_, fun other there => ?_⟩, fun absent => ?_,
        fun never => (nomatch never), fun other there => ?_, fun _ absent => ?_⟩
      · cases absent.symm.trans mine.written
      · cases mine.written.symm.trans there
        exact ⟨mine.sound.old, mine.sound.new, mine.sound.env⟩
      · cases absent.symm.trans mine.written
      · cases mine.written.symm.trans there
        exact same
      · cases absent.symm.trans mine.written
    refine .bind (.attempt (activates_modify (own.visit trivial) (fun _ => stuck t own current) fun _ _ => ?_))
    exact stuck _ (own.keep rfl rfl rfl) current
  | true =>
    obtain ⟨env, described⟩ := complete rfl
    have removes : ∀ u, Owned journal u → u.memory.current = journal.previousState.current →
        journal.Restored inventories u → Activates inventories (do
          let _ ← Process.attempt (Process.modify .removeRestored fun host => { host with journal := none })
          pure () : ImageProcess Unit) (fun _ => Calm inventories) (fun _ => Calm inventories) u := by
      intro u mine same back
      obtain ⟨kept, gone⟩ := mine.restore back same
      refine .bind (.attempt (activates_modify (mine.visit fun other there => ?_) (fun _ => kept) fun _ _ => gone))
      cases mine.written.symm.trans there
      exact back
    refine .bind (.attempt (activates_modify (own.visit trivial) (fun fine => ?_) fun _ _ => ?_))
    · exact removes t own current ⟨by rw [env], (not_not.mp fine).trans current, described⟩
    · exact removes _ (own.keep rfl rfl rfl) current ⟨by rw [← env], rfl, described⟩

/-- What an activation that may begin finds: the image and the inventory of the state that it holds. -/
theorem Calm.start (calm : Calm inventories s) (whole : s.incomplete = false) :
    rendererImageFromEnv s.env = s.memory.current.runtimeImageId.value ∧
      s.Describes inventories s.memory.current.runtimeImageId.value := by
  cases there : s.journal with
  | none =>
    have consistent := calm.recoverable.settled there
    rw [calm.held there]
    exact ⟨consistent.recorded, consistent.described⟩
  | some other =>
    have restored := calm.restored whole other there
    rw [calm.previous other there]
    exact ⟨restored.env.trans (calm.recoverable.pending other there).old, restored.described⟩

theorem activates_activateAndPersistState {id : Nat} {nextState : RuntimeState} {image : ImageId}
    (calm : Calm inventories s) (names : nextState.current.runtimeImageId = image) :
    Activates inventories (activateAndPersistState inventories id s.memory nextState image)
      (fun _ => Calm inventories) (fun _ => Calm inventories) s := by
  refine .bind (.ask ⟨calm.recoverable, trivial⟩ (fun _ => calm) fun _ _ _ => ?_)
  refine .bind (.ask ⟨calm.recoverable, trivial⟩ (fun _ => calm) fun _ oldEnv same => ?_)
  cases same
  refine .bind (.ask ⟨calm.recoverable, trivial⟩ (fun _ => calm) fun _ oldInventory same => ?_)
  cases same
  refine .bind (activates_modify ⟨calm.recoverable, calm.restored⟩ (fun _ => calm) fun answer fine => ?_)
  have whole : s.incomplete = false := Bool.eq_false_iff.mpr fine
  obtain ⟨recorded, packages, fonts⟩ := calm.start whole
  have owned : Owned ⟨id, s.env, image, s.memory, nextState⟩ { s with
      journal := some ⟨id, s.env, image, s.memory, nextState⟩
      begun := fun other => decide (other = id) || s.begun other } := ⟨rfl, ⟨recorded, names, .inl rfl⟩, whole⟩
  have abandons : ∀ (error : ImageError) (t : ImageHost), Owned ⟨id, s.env, image, s.memory, nextState⟩ t →
      Activates inventories (do
        abandonActivation ⟨id, s.env, image, s.memory, nextState⟩ (s.packages, s.fonts)
          (decide (rendererEnvWithImage s.env image ≠ s.env))
        throw error : ImageProcess Unit) (fun _ => Calm inventories) (fun _ => Calm inventories) t := by
    intro error t own
    rw [packages, fonts]
    exact activates_abandonActivation own
  exact .handle ((activates_performActivation owned rfl rfl).mono (fun _ _ held => held) abandons)

end Activation

end LatexRenderer
