import LatexRenderer.Deploy.UpdaterSlots

/-! # Activation and recovery of updater slots

A recovery goes back to what was there when the pending activation began: first the controller's state
from the backup, then the slots. A collection runs when nothing is pending, and keeps what the state names.
-/

namespace LatexRenderer

open Machine UpdaterSlots

section Operations

variable {s : UpdaterHost} {allowed : UpdaterSite → Reply UpdaterAnswer → Prop}

/-- The state says what was there when the activation `origin` began, and so does the controller's unless
it runs. -/
structure UpdaterHost.Back (origin : ActivationOrigin) (t : UpdaterHost) : Prop where
  state : t.disk.current.state = some ⟨origin.current, origin.previous, none, none⟩
  controller : t.running = false → t.disk.current.controller = origin.controller

theorem UpdaterHost.Back.idles {origin : ActivationOrigin} {t : UpdaterHost} (back : s.Back origin)
    (idles : s.Idles t) : t.Back origin := by
  refine ⟨idles.state.trans back.state, fun stopped => ?_⟩
  have before := idles.running.symm.trans stopped
  exact (idles.controller before).trans (back.controller before)

/-- The files that a collection leaves alone. -/
structure UpdaterHost.Collects (s t : UpdaterHost) : Prop where
  running : t.running = s.running
  state : t.disk.current.state = s.disk.current.state
  controller : s.running = false → t.disk.current.controller = s.disk.current.controller
  coherent : t.Coherent

theorem UpdaterHost.Idles.collects {t : UpdaterHost} (idles : s.Idles t) (coherent : s.Coherent) :
    s.Collects t :=
  ⟨idles.running, idles.state, idles.controller, idles.coherent coherent⟩

theorem UpdaterHost.Collects.trans {t u : UpdaterHost} (first : s.Collects t) (second : t.Collects u) :
    s.Collects u :=
  ⟨second.running.trans first.running, second.state.trans first.state,
    fun stopped => (second.controller (first.running.trans stopped)).trans (first.controller stopped),
    second.coherent⟩

/-- What a recovery that returns has achieved: no activation is pending, and where one was, it is undone. -/
def UpdaterHost.Recovered (began : UpdaterHost) (done : Bool) (t : UpdaterHost) : Prop :=
  (∃ value, t.disk.current.state = some value ∧ value.pending = none) ∧
    ∀ origin, began.disk.current.activation = some origin → done = true ∧ t.Back origin

end Operations

section Faultless

variable {s t u : UpdaterHost} {β : Type} {E : UpdaterError → UpdaterHost → Prop} {origin : ActivationOrigin}

/-- A slot that `verify` accepts. -/
def UpdaterHost.Ready (s : UpdaterHost) (id : String) : Prop :=
  validSlotId id = true ∧ s.disk.current.slots id = .verified

theorem UpdaterHost.Ready.idles {id : String} (ready : s.Ready id) (idles : s.Idles t) : t.Ready id :=
  ⟨ready.1, (congrFun idles.slots id).trans ready.2⟩

/-- What a recovery leaves. -/
structure UpdaterHost.Restored (origin : ActivationOrigin) (t : UpdaterHost) : Prop extends t.Back origin where
  closed : t.disk.current.activation = none

/-- The state, and that of a controller that does not run, are as before. -/
structure UpdaterHost.Keeps (s t : UpdaterHost) : Prop where
  running : t.running = s.running
  state : t.disk.current.state = s.disk.current.state
  activation : t.disk.current.activation = s.disk.current.activation
  controller : s.running = false → t.disk.current.controller = s.disk.current.controller

theorem UpdaterHost.Idles.keeps (idles : s.Idles t) : s.Keeps t :=
  ⟨idles.running, idles.state, idles.activation, idles.controller⟩

theorem UpdaterHost.Keeps.trans (first : s.Keeps t) (second : t.Keeps u) : s.Keeps u :=
  ⟨second.running.trans first.running, second.state.trans first.state, second.activation.trans first.activation,
    fun stopped => (second.controller (first.running.trans stopped)).trans (first.controller stopped)⟩

theorem UpdaterHost.Restored.keeps (restored : s.Restored origin) (keeps : s.Keeps t) : t.Restored origin where
  state := keeps.state.trans restored.state
  controller stopped :=
    have before := keeps.running.symm.trans stopped
    (keeps.controller before).trans (restored.controller before)
  closed := keeps.activation.trans restored.closed

theorem UpdaterHost.Keeps.setSlot {id : String} {directory : SlotDirectory} (keeps : s.Keeps t) :
    s.Keeps (t.onDisk (UpdaterDisk.setSlot id directory)) :=
  ⟨keeps.running, keeps.state, keeps.activation, keeps.controller⟩

end Faultless

end LatexRenderer
