import LatexRenderer.Model.Deploy.UpdaterSlots

/-! # What the operations on updater slots keep

`Sound` ties the files together: the slots that the state names are there, and while an activation is
pending the state and the backup say what was there before it. It holds of the disk as it is and of every
state that a power loss may bring back.
-/

namespace LatexRenderer

open Machine UpdaterSlots

/-- What is kept of the files. -/
structure UpdaterDisk.Sound (disk : UpdaterDisk) : Prop where
  verified : ∀ value, disk.state = some value → ∀ id ∈ value.named, validSlotId id = true ∧ disk.slots id = .verified
  pending : ∀ value, disk.state = some value →
    value.pending = disk.activation.map fun origin => ⟨origin.current, origin.previous⟩
  fresh : disk.state = none → disk.activation = none
  backup : ∀ origin, disk.activation = some origin → disk.backup = some origin.controller

theorem UpdaterDisk.Sound.controller {disk : UpdaterDisk} (sound : disk.Sound) (contents : Option String) :
    UpdaterDisk.Sound { disk with controller := contents } :=
  ⟨sound.verified, sound.pending, sound.fresh, sound.backup⟩

/-- A slot that the state does not name may be changed. -/
theorem UpdaterDisk.Sound.setSlot {disk : UpdaterDisk} (sound : disk.Sound) {id : String}
    {directory : SlotDirectory}
    (fits : directory = .verified ∨ ∀ value, disk.state = some value → id ∉ value.named) :
    (disk.setSlot id directory).Sound := by
  refine ⟨fun value found other member => ⟨(sound.verified value found other member).1, ?_⟩, sound.pending, sound.fresh,
    sound.backup⟩
  show (if other = id then directory else disk.slots other) = .verified
  split
  case isTrue same =>
    rcases fits with verified | unnamed
    · exact verified
    · exact absurd (same ▸ member) (unnamed value found)
  case isFalse => exact (sound.verified value found other member).2

namespace UpdaterHost

/-- The files are sound, and stay so after a power loss. -/
def Coherent (s : UpdaterHost) : Prop := s.disk.Always UpdaterDisk.Sound

/-- A host after a running controller went on. -/
structure Idles (s t : UpdaterHost) : Prop where
  running : t.running = s.running
  state : t.disk.current.state = s.disk.current.state
  slots : t.disk.current.slots = s.disk.current.slots
  backup : t.disk.current.backup = s.disk.current.backup
  activation : t.disk.current.activation = s.disk.current.activation
  controller : s.running = false → t.disk.current.controller = s.disk.current.controller
  coherent : s.Coherent → t.Coherent

theorem idles_refl (s : UpdaterHost) : s.Idles s := ⟨rfl, rfl, rfl, rfl, rfl, fun _ => rfl, id⟩

theorem idles_manager (s : UpdaterHost) (written : Option (Option String)) :
    s.Idles (s.manager written) := by
  obtain ⟨disk, running⟩ := s
  cases running with
  | false => exact idles_refl _
  | true =>
    cases written with
    | none => exact idles_refl _
    | some contents =>
      refine ⟨rfl, rfl, rfl, rfl, rfl, fun never => ?_, fun coherent => ?_⟩
      · cases never
      · exact Journaled.Always.update coherent (coherent.1.controller contents)

theorem Idles.trans {s t u : UpdaterHost} (first : s.Idles t) (second : t.Idles u) : s.Idles u :=
  ⟨second.running.trans first.running, second.state.trans first.state, second.slots.trans first.slots,
    second.backup.trans first.backup, second.activation.trans first.activation,
    fun stopped => (second.controller (first.running.trans stopped)).trans (first.controller stopped),
    fun coherent => second.coherent (first.coherent coherent)⟩

theorem Coherent.onDisk {s : UpdaterHost} (coherent : s.Coherent) {f : UpdaterDisk → UpdaterDisk}
    (sound : (f s.disk.current).Sound) : (s.onDisk f).Coherent :=
  Journaled.Always.update coherent sound

theorem Coherent.sync {s : UpdaterHost} (coherent : s.Coherent) : s.sync.Coherent :=
  Journaled.Always.sync coherent

end UpdaterHost

/-- What the steps need. A slot is removed when no activation is pending and the state does not name it;
each write of the state starts from the state that is there. -/
def UpdaterSite.Needs : UpdaterSite → UpdaterHost → Prop
  | .renameState .nominate value, s => ∀ old, s.disk.current.state = some old →
      old.pending = none ∧ value.current = old.current ∧ value.previous = old.previous ∧ value.pending = none
  | .renameState .begin value, s => s.running = false ∧ ∃ old candidate,
      s.disk.current.state = some old ∧ old.candidate = some candidate ∧ old.pending = none ∧
        value = ⟨candidate, some old.current, none, some ⟨old.current, old.previous⟩⟩
  | .renameState .finish value, s => ∃ old, s.disk.current.state = some old ∧
      value = { old with pending := none }
  | .renameState .recover value, s => ∃ origin, s.disk.current.activation = some origin ∧
      value = ⟨origin.current, origin.previous, none, none⟩ ∧
      (s.running = false → s.disk.current.controller = origin.controller)
  | .writeController contents, s => ∃ origin, s.disk.current.activation = some origin ∧
      contents = origin.controller
  | .unlinkSlot id, s => ∃ value, s.disk.current.state = some value ∧ value.pending = none ∧ id ∉ value.named
  | .removeSlot id, s => ∃ value, s.disk.current.state = some value ∧ value.pending = none ∧ id ∉ value.named
  | _, _ => True

/-- The condition at a step. -/
def UpdaterSite.Meets (site : UpdaterSite) (s : UpdaterHost) : Prop :=
  s.Coherent ∧ site.Needs s

section Rules

variable {s : UpdaterHost} {allowed : UpdaterSite → Reply UpdaterAnswer → Prop} {β : Type}

end Rules

section Operations

variable {s : UpdaterHost} {allowed : UpdaterSite → Reply UpdaterAnswer → Prop}

end Operations

end LatexRenderer
