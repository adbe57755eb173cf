import Mathlib.Tactic.Basic

/-! # Entries of a directory that a power loss may take back

A rename or an unlink is seen at once by every process and is certain to outlive a power loss only
after the directory was synced. A `Durable` entry carries both: the content that is `visible` now and
the content that is `stored`, the one a power loss may bring back. A property of `both` holds whatever
happens to the power. A `Journaled` disk is taken back as a whole, to one of its states since the last
sync.
-/

namespace Machine

/-- An entry with the content seen now and the content a power loss may bring back. -/
structure Durable (α : Type) where
  visible : α
  stored : α
deriving DecidableEq, Repr

namespace Durable

variable {α : Type}

/-- An entry whose content is safe. -/
def settled (content : α) : Durable α := ⟨content, content⟩

/-- Replace what is seen. -/
def put (entry : Durable α) (content : α) : Durable α := { entry with visible := content }

/-- Sync the directory. -/
def sync (entry : Durable α) : Durable α := settled entry.visible

/-- A power loss; it takes the last unsynced change back or does not. -/
def lose (entry : Durable α) (taken : Bool) : Durable α :=
  settled (if taken then entry.stored else entry.visible)

/-- A property of the content seen now and of the one a power loss may bring back. -/
def Both (P : α → Prop) (entry : Durable α) : Prop := P entry.visible ∧ P entry.stored

@[simp] theorem settled_visible (content : α) : (settled content).visible = content := rfl

@[simp] theorem settled_stored (content : α) : (settled content).stored = content := rfl

@[simp] theorem put_visible (entry : Durable α) (content : α) : (entry.put content).visible = content :=
  rfl

@[simp] theorem put_stored (entry : Durable α) (content : α) :
    (entry.put content).stored = entry.stored := rfl

@[simp] theorem sync_visible (entry : Durable α) : entry.sync.visible = entry.visible := rfl

@[simp] theorem sync_stored (entry : Durable α) : entry.sync.stored = entry.visible := rfl

theorem Both.put {P : α → Prop} {entry : Durable α} {content : α} (held : Both P entry)
    (fits : P content) : Both P (entry.put content) := ⟨fits, held.2⟩

theorem Both.sync {P : α → Prop} {entry : Durable α} (held : Both P entry) : Both P entry.sync :=
  ⟨held.1, held.1⟩

theorem Both.lose {P : α → Prop} {entry : Durable α} (held : Both P entry) (taken : Bool) :
    Both P (entry.lose taken) := by
  cases taken
  · exact ⟨held.1, held.1⟩
  · exact ⟨held.2, held.2⟩

end Durable

/-- A file that is only ever replaced as a whole: new content is written to a temporary file beside it,
and the temporary file is renamed over it. -/
structure AtomicFile (α : Type) where
  entry : Durable α
  temporary : Durable Bool := .settled false
deriving DecidableEq, Repr

namespace AtomicFile

variable {α : Type}

/-- The temporary file is created exclusively, so a leftover one is in the way. -/
def create (file : AtomicFile α) : Option (AtomicFile α) :=
  if file.temporary.visible then none else some { file with temporary := file.temporary.put true }

/-- Rename the temporary file over the entry. -/
def publish (file : AtomicFile α) (content : α) : AtomicFile α :=
  { entry := file.entry.put content, temporary := file.temporary.put false }

/-- Sync the directory of the file. -/
def sync (file : AtomicFile α) : AtomicFile α :=
  { entry := file.entry.sync, temporary := file.temporary.sync }

/-- Unlink a temporary file that an earlier process left. -/
def discard (file : AtomicFile α) : AtomicFile α :=
  { file with temporary := file.temporary.put false }

/-- A power loss. -/
def lose (file : AtomicFile α) (entry temporary : Bool) : AtomicFile α :=
  { entry := file.entry.lose entry, temporary := file.temporary.lose temporary }

@[simp] theorem publish_entry (file : AtomicFile α) (content : α) :
    (file.publish content).entry = file.entry.put content := rfl

@[simp] theorem sync_entry (file : AtomicFile α) : file.sync.entry = file.entry.sync := rfl

@[simp] theorem discard_entry (file : AtomicFile α) : file.discard.entry = file.entry := rfl

@[simp] theorem lose_entry (file : AtomicFile α) (entry temporary : Bool) :
    (file.lose entry temporary).entry = file.entry.lose entry := rfl

theorem create_entry {file created : AtomicFile α} (made : file.create = some created) :
    created.entry = file.entry := by
  unfold create at made
  split at made
  · cases made
  · cases made
    rfl

end AtomicFile

/-- A disk whose changes reach the platter in order: a power loss takes it back to a state that it was in
since the last sync. -/
structure Journaled (α : Type) where
  current : α
  earlier : List α := []

namespace Journaled

variable {α : Type}

/-- Change the disk. -/
def update (disk : Journaled α) (f : α → α) : Journaled α :=
  { current := f disk.current, earlier := disk.current :: disk.earlier }

/-- Make everything up to now safe. -/
def sync (disk : Journaled α) : Journaled α := { current := disk.current }

/-- A power loss; where it says nothing the disk keeps its last change. -/
def lose (disk : Journaled α) (age : Nat) : Journaled α :=
  { current := (disk.current :: disk.earlier).getD age disk.current }

/-- A property of the disk now and after any power loss. -/
def Always (P : α → Prop) (disk : Journaled α) : Prop := P disk.current ∧ ∀ state ∈ disk.earlier, P state

@[simp] theorem update_current (disk : Journaled α) (f : α → α) :
    (disk.update f).current = f disk.current := rfl

@[simp] theorem sync_current (disk : Journaled α) : disk.sync.current = disk.current := rfl

theorem Always.update {P : α → Prop} {disk : Journaled α} (held : Always P disk) {f : α → α}
    (next : P (f disk.current)) : Always P (disk.update f) := by
  refine ⟨next, fun state member => ?_⟩
  rcases List.mem_cons.mp member with rfl | member
  · exact held.1
  · exact held.2 state member

theorem Always.sync {P : α → Prop} {disk : Journaled α} (held : Always P disk) : Always P disk.sync :=
  ⟨held.1, by simp [Journaled.sync]⟩

theorem Always.lose {P : α → Prop} {disk : Journaled α} (held : Always P disk) (age : Nat) :
    Always P (disk.lose age) := by
  have all : ∀ state ∈ disk.current :: disk.earlier, P state := by
    intro state member
    rcases List.mem_cons.mp member with rfl | member
    · exact held.1
    · exact held.2 state member
  refine ⟨?_, by simp [Journaled.lose]⟩
  show P ((disk.current :: disk.earlier).getD age disk.current)
  rw [List.getD_eq_getElem?_getD]
  cases found : (disk.current :: disk.earlier)[age]? with
  | none => exact held.1
  | some state => exact all state (List.mem_of_getElem? found)

end Journaled

end Machine
