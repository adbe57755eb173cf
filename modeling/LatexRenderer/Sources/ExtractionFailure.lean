import Mathlib.Tactic.MkIffOfInductiveProp
import LatexRenderer.Sources.ArchiveNames

/-! # What a rejected archive leaves

The clean-up of `validateAndExtract` begins where the loop does: what fails before it leaves the destination and what is
open. In the loop a file that cannot be opened leaves the stream of its entry, which keeps the archive open.
-/

namespace LatexRenderer

open Machine
open Machine.Process

variable {request : ExtractRequest} {destination : Bool} {t : ExtractState} {archive : List ZipEntry}

/-- Nothing is open, and a destination that was not there before is not there. -/
@[mk_iff] structure NothingLeft (destination : Bool) (t : ExtractState) : Prop where
  destination : destination = false → t.destination = false
  zipOpen : t.zipOpen = false
  streams : t.streams = 0
  zipHandle : t.zipHandle = false
  outputs : t.outputs = 0

/-- The calls that leave something open where they fail. -/
def leakingSites : List ExtractSite := [.openZipHandle, .openTarget, .chmodTarget, .closeZipHandle]

/-- The calls that leave a new destination where they fail. -/
def leavingSites : List ExtractSite := [.chmodDestination, .realpathDestination, .openZip, .rm]

/-- The calls that fail before the archive is open. -/
def earlySites : List ExtractSite := [.mkdirDestination, .chmodDestination, .realpathDestination, .openZip]

/-- The calls that failed leave nothing, and the archive was not opened for an entrypoint that is refused. -/
@[mk_iff] structure FailedHarmlessly (request : ExtractRequest) (destination : Bool) (refused : List ExtractSite) : Prop where
  closed : ∀ site ∈ leakingSites, site ∉ refused
  entrypoint : (requestedPath request).isOk = true ∨ ∃ site ∈ earlySites, site ∈ refused
  removed : destination = false → ∀ site ∈ leavingSites, site ∉ refused

/-- The state after the clean-up, by whether the destination could be removed and the handle closed. -/
def cleanedUp (removed closed : Bool) (t : ExtractState) : ExtractState :=
  let emptied := { if removed then t.rm else t.refuse .rm with zipOpen := false }
  if closed then { emptied with zipHandle := false } else emptied.refuse .closeZipHandle

/-- What fails in the loop is cleaned up exactly if the file could be opened and the clean-up does not fail. -/
theorem Broken.cleanedUp_iff (broken : Broken t) (accepted : (requestedPath request).isOk = true) (removed closed : Bool) :
    NothingLeft destination (cleanedUp removed closed t) ↔
      FailedHarmlessly request destination (cleanedUp removed closed t).refused := by
  have outer : ∀ site, site ∉ innerSites → site ∉ t.refused := fun site outside member => outside (broken.inner site member)
  have opened := outer .openZipHandle (by decide)
  have closed' := outer .closeZipHandle (by decide)
  have moded := outer .chmodDestination (by decide)
  have found := outer .realpathDestination (by decide)
  have unzipped := outer .openZip (by decide)
  have kept := outer .rm (by decide)
  have idle := broken.idle
  rw [nothingLeft_iff, failedHarmlessly_iff]
  cases removed <;> cases closed <;>
    simp_all [cleanedUp, ExtractState.rm, ExtractState.refuse, leakingSites, leavingSites, broken.destination, broken.zipHandle]
  exact and_comm

/-- A call that fails before the archive is open leaves at most the destination. -/
theorem nothingLeft_early (site : ExtractSite) {directories : List (List String)} {base : List (List String × Octets)}
    (early : site ∈ earlySites)
    (failed : t = { ExtractState.start destination directories base with
      destination := if site = .mkdirDestination then destination else true, refused := [site] }) :
    NothingLeft destination t ↔ FailedHarmlessly request destination t.refused := by
  subst failed
  rw [nothingLeft_iff, failedHarmlessly_iff]
  simp only [earlySites, List.mem_cons, List.not_mem_nil, or_false] at early
  rcases early with rfl | rfl | rfl | rfl <;>
    simp [ExtractState.start, leakingSites, leavingSites, earlySites]

theorem ends_cleanUp {error : ZipError} {E : ZipError → ExtractState → Prop}
    (cleaned : ∀ error removed closed, E error (cleanedUp removed closed t)) :
    Ends (do
      let removed ← outcome (changeCall .rm .io (fun _ => true) ExtractState.rm)
      closeArchive
      match removed with
      | .ok _ => throw error
      | .error failure => throw failure : Extraction ExtractResult) (fun _ _ => True) E t := by
  refine .bind (ends_outcome (ends_changeCall ?_ fun _ => ?_))
  · refine .bind (.bind (ends_mark (ends_changeCall ?_ fun _ => ?_)))
    · exact cleaned _ false false
    · exact cleaned _ false true
  · refine .bind (.bind (ends_mark (ends_changeCall ?_ fun _ => ?_)))
    · exact cleaned _ true false
    · exact cleaned _ true true

/-- However its calls are answered, a rejection leaves nothing behind exactly if the calls that failed leave nothing. -/
theorem extraction_nothingLeft_iff (request : ExtractRequest) (archive : List ZipEntry) (destination : Bool)
    (directories : List (List String)) (base : List (List String × Octets)) :
    (validateAndExtract request archive).wp anyAnswer (fun _ _ => True)
      (fun _ t => NothingLeft destination t ↔ FailedHarmlessly request destination t.refused) (fun _ _ => True)
      (.start destination directories base) := by
  refine Ends.bind (ends_changeCall (nothingLeft_early .mkdirDestination (by decide) rfl) fun _ => ?_)
  refine Ends.bind (ends_changeCall (nothingLeft_early .chmodDestination (by decide) rfl) fun _ => ?_)
  refine Ends.bind (ends_changeCall (nothingLeft_early .realpathDestination (by decide) rfl) fun _ => ?_)
  refine Ends.bind (ends_changeCall (nothingLeft_early .openZip (by decide) rfl) fun _ => ?_)
  refine Ends.bind (ends_changeCall ?_ fun _ => ?_)
  · simp [nothingLeft_iff, failedHarmlessly_iff, ExtractState.start, ExtractState.refuse, leakingSites]
  refine Ends.bind (ends_ofExcept (fun entrypoint accepted => ?_) fun error refused => ?_)
  · have valid : (requestedPath request).isOk = true := by
      rw [accepted]
      rfl
    refine Ends.bind (ends_outcome ((extractArchive_ends ?_).mono ?_ fun error t broken => ?_))
    · constructor <;> rfl
    · rintro result t ⟨names, x, named, sound, told⟩
      refine Ends.bind (Ends.bind (ends_mark (ends_changeCall ?_ fun _ => trivial)))
      have held := sound.ready.zipHandle
      have succeeded := sound.ready.refused
      simp [nothingLeft_iff, failedHarmlessly_iff, ExtractState.refuse, leakingSites, held, succeeded]
    · exact ends_cleanUp fun _ removed closed => broken.cleanedUp_iff valid removed closed
  · simp [nothingLeft_iff, failedHarmlessly_iff, ExtractState.start, refused, earlySites, Except.isOk, Except.toBool]

/-- What is no archive leaves the directory that was made for it. -/
theorem extraction_leaves_destination :
    ¬ ∀ (request : ExtractRequest) (archive : List ZipEntry) (destination : Bool) (directories : List (List String))
      (base : List (List String × Octets)), (validateAndExtract request archive).wp anyAnswer (fun _ _ => True)
        (fun _ t => NothingLeft destination t) (fun _ _ => True) (.start destination directories base) := by
  intro all
  have rejected : ((validateAndExtract plainRequest []).replay?
      [.done noAnswer, .done noAnswer, .done noAnswer, .refused] (.start false [] [])).map
        (fun ended => (ended.1, ended.2.destination)) = some (.error .invalidZip, true) := by decide +kernel
  obtain ⟨⟨_, t⟩, ran, same⟩ := Option.map_eq_some_iff.mp rejected
  obtain ⟨rfl, left⟩ := Prod.mk.inj same
  have restored := ((all plainRequest [] false [] []).replay ran).2 _ rfl
  exact Bool.false_ne_true ((restored.destination rfl).symm.trans left)

end LatexRenderer
