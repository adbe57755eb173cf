import LatexRenderer.Renderer.PrefetchTasks

/-! # The workers of the prefetcher

A worker changes the file and the part file of the one task that it holds, so the invariant of the coordinator survives
every action of a worker.
-/

namespace LatexRenderer

open Machine

variable {p : Prefetch} {s t : PrefetchState}

section Workers

variable {k : Nat} {worker new : PrefetchWorker}

/-- A worker that stays down for its task changes, with the part files, and files may appear. -/
theorem PrefetchSound.setWorker (sound : PrefetchSound p s) {files : Nat → Option Octets} (now : WorkerSound p files new)
    (found : s.workers[k]? = some worker) (same : new.task = worker.task) {log : List PrefetchRecord}
    (keeps : ∀ i, (s.files i).isSome → (files i).isSome) (fresh : HandsOutFresh log)
    (verified : ∀ i bytes, files i = some bytes →
      log.find? (fun record => decide (record.index = i)) = some (.verified i) ∧
        ∃ entry, p.plan[i]? = some entry ∧ p.Matches entry bytes) (parts : Nat → Option Octets) :
    PrefetchSound p { s with workers := s.workers.set k new, files, parts, log } := by
  obtain ⟨before, after, shape, replaced⟩ := worker_at found
  refine ⟨sound.keys, sound.reserved, sound.within, sound.few, sound.planned, ?_, fun other member => ?_,
    fun task member ready => keeps _ (sound.ready task member ready), verified, fresh⟩
  · have kept : (s.workers.set k new).filterMap (·.task) = s.held := by
      rw [PrefetchState.held, replaced, shape, List.filterMap_append, List.filterMap_append, List.filterMap_cons,
        List.filterMap_cons, same]
    exact (List.Perm.of_eq kept).trans sound.held
  · rw [replaced] at member
    rcases List.mem_append.mp member with left | right
    · exact (sound.workers other (by rw [shape]; exact List.mem_append_left _ left)).grow keeps
    · rcases List.mem_cons.mp right with rfl | later
      · exact now
      · exact (sound.workers other (by rw [shape]; simp [later])).grow keeps

/-- A worker that is at a task was given it by the coordinator. -/
theorem PrefetchSound.attempt (sound : PrefetchSound p s) (found : s.workers[k]? = some worker) {task : PrefetchTask}
    {second : Bool} (under : worker.attempt = some (task, second)) :
    worker = ⟨some task.index, [], some (task, second), []⟩ ∧ p.plan[task.index]? = some task.entry ∧
      task.status = .running := by
  have old := sound.workers worker (List.mem_of_getElem? found)
  cases old with
  | busy planned =>
    cases under
    exact ⟨rfl, planned, rfl⟩
  | _ => cases under

theorem failAttempt_sound (sound : PrefetchSound p s) (found : s.workers[k]? = some worker) {task : PrefetchTask}
    {second : Bool} (under : worker.attempt = some (task, second)) :
    PrefetchSound p (failAttempt k worker task second s) := by
  obtain ⟨rfl, planned, running⟩ := sound.attempt found under
  obtain ⟨i, entry, status⟩ := task
  cases running
  have failed : WorkerSound p s.files ⟨some i, [], none, [false]⟩ := .done fun never => Bool.noConfusion never
  have again : WorkerSound p s.files ⟨some i, [], some (⟨i, entry, .running⟩, true), []⟩ := .busy planned
  unfold failAttempt
  split
  · exact sound.setWorker failed found rfl (fun _ there => there) sound.fresh sound.files _
  · exact sound.setWorker again found rfl (fun _ there => there) sound.fresh sound.files _

/-- A verified file is there, and the log says so. -/
theorem PrefetchSound.verify (sound : PrefetchSound p s) {task : PrefetchTask} {bytes : Octets}
    (planned : p.plan[task.index]? = some task.entry) (matching : p.Matches task.entry bytes) :
    PrefetchSound p { s with
      files := Function.update s.files task.index (some bytes)
      log := .verified task.index :: s.log } := by
  have keeps : ∀ i, (s.files i).isSome → (Function.update s.files task.index (some bytes) i).isSome := by
    intro i there
    by_cases same : i = task.index
    · rw [same, Function.update_self]
      rfl
    · rwa [Function.update_of_ne same]
  refine ⟨sound.keys, sound.reserved, sound.within, sound.few, sound.planned, sound.held,
    fun worker member => (sound.workers worker member).grow keeps,
    fun other member ready => keeps _ (sound.ready other member ready), fun i content there => ?_,
    sound.fresh.cons fun index dest same => nomatch same⟩
  dsimp only at there ⊢
  by_cases same : i = task.index
  · subst same
    rw [Function.update_self] at there
    cases there
    exact ⟨List.find?_cons_of_pos (decide_eq_true rfl), task.entry, planned, matching⟩
  · rw [Function.update_of_ne same] at there
    obtain ⟨verified, entry⟩ := sound.files i content there
    refine ⟨.trans ?_ verified, entry⟩
    exact List.find?_cons_of_neg (p := fun record : PrefetchRecord => decide (record.index = i)) fun equal =>
      same (of_decide_eq_true equal).symm

theorem workerAction_sound (sound : PrefetchSound p s) (found : s.workers[k]? = some worker) {task : PrefetchTask}
    {second : Bool} (under : worker.attempt = some (task, second)) (action : WorkerAction) :
    PrefetchSound p (workerAction p k worker task second s action) := by
  have fails := failAttempt_sound sound found under
  cases action with
  | chunk bytes =>
    rw [workerAction]
    split
    · exact ⟨sound.keys, sound.reserved, sound.within, sound.few, sound.planned, sound.held, sound.workers, sound.ready,
        sound.files, sound.fresh⟩
    · exact fails
  | fails => exact fails
  | verifies late =>
    obtain ⟨rfl, planned, running⟩ := sound.attempt found under
    rw [workerAction]
    split
    · next matching =>
      have verified := sound.verify planned matching
      dsimp only
      split
      · exact failAttempt_sound verified found under
      · have answered : WorkerSound p (Function.update s.files task.index (some ((s.parts task.index).getD [])))
            ⟨some task.index, [], none, [true]⟩ := .done fun _ => by rw [Function.update_self]; rfl
        exact verified.setWorker answered found rfl (fun _ there => there) verified.fresh verified.files _
    · exact fails

end Workers

section Runs

theorem prefetchStep_sound {event : PrefetchEvent} (sound : PrefetchSound p s) (stepped : prefetchStep p s event = some t) :
    PrefetchSound p t := by
  cases event with
  | request url dest renames =>
    rw [prefetchStep] at stepped
    split at stepped
    · split at stepped
      · cases stepped
        exact sound.restate _ _ _
      · next index _ =>
        split at stepped
        · cases stepped
        · split at stepped
          · cases stepped
            exact sound.restate _ _ _
          · cases stepped
            exact proceed_sound (fill_sound _ (discardBefore_sound _ sound))
    · cases stepped
  | results ready renames =>
    rw [prefetchStep] at stepped
    split at stepped
    · cases stepped
    · split at stepped
      · obtain ⟨mid, received, rfl⟩ := Option.map_eq_some_iff.mp stepped
        have after := receive_sound sound received
        split
        · exact fill_sound _ (discardBefore_sound _ after)
        · exact after
      · obtain ⟨mid, received, rfl⟩ := Option.map_eq_some_iff.mp stepped
        exact proceed_sound (fill_sound _ (receive_sound sound received))
      · cases stepped
  | stop =>
    cases stepped
    exact sound.restate _ _ _
  | take k =>
    rw [prefetchStep] at stepped
    split at stepped
    · next holds task inbox outbox found =>
      cases stepped
      have old := sound.workers _ (List.mem_of_getElem? found)
      cases old with
      | sent planned =>
        have now : WorkerSound p s.files ⟨some _, [], some (⟨_, _, .running⟩, false), []⟩ := .busy planned
        exact sound.setWorker now found rfl (fun _ there => there) sound.fresh sound.files _
    · cases stepped
  | work k action =>
    rw [prefetchStep] at stepped
    split at stepped
    · next worker found =>
      obtain ⟨⟨task, second⟩, under, rfl⟩ := Option.map_eq_some_iff.mp stepped
      exact workerAction_sound sound found under action
    · cases stepped

end Runs

end LatexRenderer
