import LatexRenderer.Deploy.UpdaterActivation

/-! # Updater slots over whole runs

The operations follow each other in any order, each may fail or be killed at any step, and between them the
manager comes and goes and the power may be lost.
-/

namespace LatexRenderer

open Machine UpdaterSlots

/-- The state changes when it is written; an activation is begun by one write, from what is there, and
ended by two others. -/
structure UpdaterChange (site : UpdaterSite) (s t : UpdaterHost) : Prop where
  state : t.disk.current.state = s.disk.current.state ∨
    ∃ write value, site = .renameState write value ∧ t.disk.current.state = some value
  activation : t.disk.current.activation = s.disk.current.activation ∨
    (∃ value m, site = .renameState .begin value ∧ s.Idles m ∧ t.disk.current.activation =
      m.disk.current.state.map fun old => ⟨old.current, old.previous, m.disk.current.controller⟩) ∨
    (∃ value, (site = .renameState .finish value ∨ site = .renameState .recover value) ∧
      t.disk.current.activation = none)

section Steps

theorem UpdaterChange.idles {site : UpdaterSite} {s m t : UpdaterHost} (idles : s.Idles m)
    (change : UpdaterChange site m t) : UpdaterChange site s t := by
  refine ⟨?_, ?_⟩
  · exact change.state.imp (·.trans idles.state) id
  · rcases change.activation with same | ⟨value, u, begun, later, origin⟩ | ended
    · exact .inl (same.trans idles.activation)
    · exact .inr (.inl ⟨value, u, begun, idles.trans later, origin⟩)
    · exact .inr (.inr ended)

end Steps

section Runs

/-- What an operation that returns has achieved. -/
def UpdaterOperation.Achieved (operation : UpdaterOperation) (began : UpdaterHost) (done : Bool)
    (t : UpdaterHost) : Prop :=
  match operation with
  | .recover => began.Recovered done t
  | _ => True

theorem UpdaterHost.Coherent.drift {s : UpdaterHost} (coherent : s.Coherent) (change : UpdaterDrift) :
    (change.apply s).Coherent := by
  cases change with
  | manager running => exact coherent
  | controller contents => exact (s.idles_manager (some contents)).coherent coherent
  | powerLoss age => exact Journaled.Always.lose coherent age

end Runs

end LatexRenderer
