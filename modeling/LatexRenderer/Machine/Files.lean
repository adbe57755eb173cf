import LatexRenderer.Machine.Durable
import LatexRenderer.Machine.Process

/-! # Replacing and unlinking the files of a process

A process replaces a file in three steps: it creates a temporary file, renames it over the entry and
syncs the directory. The rules say what the state may be at each of them; a `Field` tells where in the
state the file is.
-/

namespace Machine

/-- A part of a state. -/
structure Field (σ φ : Type) where
  get : σ → φ
  set : σ → φ → σ
  get_set : ∀ s f, get (set s f) = f
  set_set : ∀ s f g, set (set s f) g = set s g
  set_get : ∀ s, set s (get s) = s

variable {S σ ι ε α : Type} [Fault ε]

namespace Process

/-- Replace a file as a whole; a leftover temporary file is the error `inTheWay`. -/
def replaceFile (field : Field σ (AtomicFile α)) (create rename flush : S) (inTheWay : ε) (content : α) :
    Process S σ ι ε Unit := do
  act create fun _ s =>
    match (field.get s).create with
    | none => .error inTheWay
    | some created => .ok ((), field.set s created)
  modify rename fun s => field.set s ((field.get s).publish content)
  modify flush fun s => field.set s (field.get s).sync

/-- Unlink a file. -/
def unlinkFile (field : Field σ (AtomicFile (Option α))) (unlink flush : S) : Process S σ ι ε Unit := do
  modify unlink fun s => field.set s { field.get s with entry := (field.get s).entry.put none }
  modify flush fun s => field.set s (field.get s).sync

/-- Remove a temporary file that an earlier process left, and sync its directory; where there is none,
nothing is done. -/
def discardTemporary (field : Field σ (AtomicFile α)) (inspect discard flush : S) :
    Process S σ ι ε Unit := do
  let found ← ask inspect fun _ s => .ok (field.get s).temporary.visible
  if found then do
    modify discard fun s => field.set s (field.get s).discard
    modify flush fun s => field.set s (field.get s).sync
  else pure ()

variable {allowed : S → Reply ι → Prop} {Q : Unit → σ → Prop} {E : ε → σ → Prop} {C : S → σ → Prop}
  {s : σ}

/-- The rule of a replacement: the old entry is there until the rename, the new one from then on, and
after the sync no power loss takes it back. -/
theorem wp_replaceFile {field : Field σ (AtomicFile α)} {create rename flush : S} {inTheWay : ε}
    {content : α} (visit : C create s) (before : ∀ error, E error s)
    (created : ∀ file, file.entry = (field.get s).entry →
      C rename (field.set s file) ∧ ∀ error, E error (field.set s file))
    (renamed : ∀ file, file.entry = (field.get s).entry.put content →
      C flush (field.set s file) ∧ ∀ error, E error (field.set s file))
    (synced : ∀ file, file.entry = .settled content →
      (∀ error, E error (field.set s file)) ∧ Q () (field.set s file)) :
    wp allowed Q E C (replaceFile field create rename flush inTheWay content) s := by
  refine wp_bind.mpr (wp_act.mpr ⟨visit, fun reply _ => ?_⟩)
  have rest : ∀ file, file.entry = (field.get s).entry →
      wp allowed Q E C (do
        modify rename fun s => field.set s ((field.get s).publish content)
        modify flush fun s => field.set s (field.get s).sync : Process S σ ι ε Unit) (field.set s file) := by
    intro file same
    have published := renamed (file.publish content) (by rw [AtomicFile.publish_entry, same])
    have flushed := synced (file.publish content).sync rfl
    refine wp_bind.mpr (wp_modify (created file same).1 (created file same).2 ?_ ?_)
    · simpa only [field.get_set, field.set_set] using published.2
    · refine wp_modify ?_ ?_ ?_ ?_
      · simpa only [field.get_set, field.set_set] using published.1
      · simpa only [field.get_set, field.set_set] using published.2
      · simpa only [field.get_set, field.set_set] using flushed.1
      · simpa only [field.get_set, field.set_set] using flushed.2
  cases made : (field.get s).create with
  | none => cases reply <;> simp [Reply.apply, made, before]
  | some file =>
    have same := AtomicFile.create_entry made
    cases reply with
    | done answer => simpa [Reply.apply, made] using rest file same
    | refused => simpa [Reply.apply] using before Fault.fault
    | lost answer => simpa [Reply.apply, made] using (created file same).2 Fault.fault

/-- The rule of an unlink. -/
theorem wp_unlinkFile {field : Field σ (AtomicFile (Option α))} {unlink flush : S} (visit : C unlink s)
    (before : ∀ error, E error s)
    (unlinked : ∀ file, file.entry = (field.get s).entry.put none →
      C flush (field.set s file) ∧ ∀ error, E error (field.set s file))
    (synced : ∀ file, file.entry = .settled none →
      (∀ error, E error (field.set s file)) ∧ Q () (field.set s file)) :
    wp allowed Q E C (unlinkFile field unlink flush) s := by
  have gone := unlinked { field.get s with entry := (field.get s).entry.put none } rfl
  have flushed := synced
    (AtomicFile.sync { field.get s with entry := (field.get s).entry.put none }) rfl
  refine wp_bind.mpr (wp_modify visit before gone.2 ?_)
  refine wp_modify gone.1 gone.2 ?_ ?_
  · simpa only [field.get_set, field.set_set] using flushed.1
  · simpa only [field.get_set, field.set_set] using flushed.2

/-- The rule of a removal of a temporary file: the entry is at most synced. -/
theorem wp_discardTemporary {field : Field σ (AtomicFile α)} {inspect discard flush : S}
    (visit : C inspect s) (before : (∀ error, E error s) ∧ Q () s)
    (same : ∀ file, file.entry = (field.get s).entry →
      C discard (field.set s file) ∧ C flush (field.set s file) ∧ ∀ error, E error (field.set s file))
    (synced : ∀ file, file.entry = (field.get s).entry.sync →
      (∀ error, E error (field.set s file)) ∧ Q () (field.set s file)) :
    wp allowed Q E C (discardTemporary field inspect discard flush) s := by
  refine wp_bind.mpr (wp_ask visit before.1 fun _ found _ => ?_)
  refine wp_ite.mpr ⟨fun _ => ?_, fun _ => before.2⟩
  have dropped := same (field.get s).discard rfl
  have flushed := synced (field.get s).discard.sync rfl
  have start := (same (field.get s) rfl).1
  rw [field.set_get] at start
  refine wp_bind.mpr (wp_modify start before.1 dropped.2.2 ?_)
  refine wp_modify dropped.2.1 dropped.2.2 ?_ ?_
  · simpa only [field.get_set, field.set_set] using flushed.1
  · simpa only [field.get_set, field.set_set] using flushed.2

section Steps

variable {G : S → σ → σ → Prop}

theorem Steps.replaceFile {field : Field σ (AtomicFile α)} {create rename flush : S} {inTheWay : ε}
    {content : α} (same : ∀ site s, G site s s)
    (created : ∀ s file, file.entry = (field.get s).entry → G create s (field.set s file))
    (renamed : ∀ s, G rename s (field.set s ((field.get s).publish content)))
    (synced : ∀ s, G flush s (field.set s (field.get s).sync)) :
    (replaceFile field create rename flush inTheWay content : Process S σ ι ε Unit).Steps G := by
  refine .bind (.act (same _) fun answer s value t made => ?_) fun _ =>
    .bind (.modify (same _) renamed) fun _ => .modify (same _) synced
  cases found : (field.get s).create with
  | none => simp [found] at made
  | some file =>
    simp only [found, Except.ok.injEq, Prod.mk.injEq, true_and] at made
    exact made ▸ created s file (AtomicFile.create_entry found)

theorem Steps.unlinkFile {field : Field σ (AtomicFile (Option α))} {unlink flush : S}
    (same : ∀ site s, G site s s)
    (unlinked : ∀ s file, file.entry = (field.get s).entry.put none → G unlink s (field.set s file))
    (synced : ∀ s, G flush s (field.set s (field.get s).sync)) :
    (unlinkFile field unlink flush : Process S σ ι ε Unit).Steps G :=
  .bind (.modify (same _) fun s => unlinked s _ rfl) fun _ => .modify (same _) synced

theorem Steps.discardTemporary {field : Field σ (AtomicFile α)} {inspect discard flush : S}
    (same : ∀ site s, G site s s)
    (dropped : ∀ s, G discard s (field.set s (field.get s).discard))
    (synced : ∀ s, G flush s (field.set s (field.get s).sync)) :
    (discardTemporary field inspect discard flush : Process S σ ι ε Unit).Steps G := by
  refine .bind (.ask (same _)) fun found => ?_
  split
  · exact .bind (.modify (same _) dropped) fun _ => .modify (same _) synced
  · trivial

end Steps

theorem Raises.replaceFile {P : ε → Prop} {field : Field σ (AtomicFile α)} {create rename flush : S}
    {inTheWay : ε} {content : α} (fault : P Fault.fault) (own : P inTheWay) :
    (replaceFile field create rename flush inTheWay content : Process S σ ι ε Unit).Raises P := by
  refine .bind (.act fault fun answer s error read => ?_) fun _ =>
    .bind (.modify fault) fun _ => .modify fault
  cases made : (field.get s).create with
  | none =>
    simp only [made, Except.error.injEq] at read
    exact read ▸ own
  | some file => simp [made] at read

end Process

end Machine
