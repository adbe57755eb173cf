import LatexRenderer.Renderer.PrefetchWorkers

/-! # Requests to the prefetcher

A request ends in one step or waits, and it waits only for a task that runs. It is answered with 1 in the step that
moves the verified file.
-/

namespace LatexRenderer

open Machine

variable {p : Prefetch} {s t : PrefetchState} {index : Nat}

section Frames

theorem fillLoop_eq (indices : List Nat) (s : PrefetchState) :
    ∃ tasks reserved workers, fillLoop p indices s = { s with tasks, reserved, workers } := by
  induction indices generalizing s with
  | nil => exact ⟨s.tasks, s.reserved, s.workers, rfl⟩
  | cons i rest ih =>
    rw [fillLoop]
    split
    · exact ⟨s.tasks, s.reserved, s.workers, rfl⟩
    · split
      · exact ⟨s.tasks, s.reserved, s.workers, rfl⟩
      · split
        · exact ih s
        · split
          · exact ⟨s.tasks, s.reserved, s.workers, rfl⟩
          · next entry _ =>
            split
            · exact ih s
            · split
              · exact ⟨s.tasks, s.reserved, s.workers, rfl⟩
              · obtain ⟨tasks, reserved, workers, same⟩ := ih (startTask { index := i, entry, status := .running } s)
                exact ⟨tasks, reserved, workers, same⟩

theorem fill_eq (p : Prefetch) (index : Nat) (s : PrefetchState) : ∃ tasks reserved workers, fill p index s = { s with tasks, reserved, workers } :=
  fillLoop_eq _ s

/-- `receive` changes the tasks and workers only. -/
theorem receive_eq {ready : List Nat} (received : receive ready s = some t) :
    ∃ tasks workers, t = { s with tasks, workers } := by
  induction ready generalizing s with
  | nil =>
    cases received
    exact ⟨_, _, rfl⟩
  | cons k rest ih =>
    obtain ⟨mid, first, later⟩ := Option.bind_eq_some_iff.mp received
    obtain ⟨tasks, workers, rfl⟩ := ih later
    unfold receiveFrom at first
    split at first
    · cases first
      exact ⟨tasks, workers, rfl⟩
    · cases first

/-- After the answer only tasks, workers and files change, and what is discarded goes into the log. -/
theorem respond_eq (p : Prefetch) (index : Nat) (answer : PrefetchAnswer) (s : PrefetchState) :
    ∃ tasks reserved workers files newer, respond p index answer s = { s with
      tasks, reserved, workers, files
      phase := .select
      cursor := some (index + 1)
      answers := answer :: s.answers
      log := newer ++ s.log } := by
  obtain ⟨tasks, reserved, workers, same⟩ := fill_eq p (index + 1) (discardBefore (index + 1)
    { s with answers := answer :: s.answers, phase := .select, cursor := some (index + 1) })
  exact ⟨tasks, reserved, workers, _, _, same⟩

theorem failAttempt_eq (k : Nat) (worker : PrefetchWorker) (task : PrefetchTask) (second : Bool) (s : PrefetchState) :
    ∃ workers parts, failAttempt k worker task second s = { s with workers, parts } := by
  unfold failAttempt
  split <;> exact ⟨_, _, rfl⟩

/-- A worker changes its own side and files only. -/
theorem workerAction_eq (k : Nat) (worker : PrefetchWorker) (task : PrefetchTask) (second : Bool) (s : PrefetchState)
    (action : WorkerAction) :
    ∃ workers files parts log, workerAction p k worker task second s action = { s with workers, files, parts, log } := by
  have fails : ∃ workers files parts log,
      failAttempt k worker task second s = { s with workers, files, parts, log } := by
    obtain ⟨workers, parts, same⟩ := failAttempt_eq k worker task second s
    exact ⟨workers, s.files, parts, s.log, same⟩
  cases action with
  | chunk bytes =>
    rw [workerAction]
    split
    · exact ⟨s.workers, s.files, _, s.log, rfl⟩
    · exact fails
  | fails => exact fails
  | verifies late =>
    rw [workerAction]
    split
    · dsimp only
      split
      · obtain ⟨workers, parts, same⟩ := failAttempt_eq k worker task second { s with
          files := Function.update s.files task.index (some ((s.parts task.index).getD []))
          log := .verified task.index :: s.log }
        exact ⟨workers, _, parts, _, same⟩
      · exact ⟨_, _, _, _, rfl⟩
    · exact fails

end Frames

section Requests

variable {url dest : Text} {renames : Bool} {entry : PlanEntry}

/-- A request waits for a task of its entry that runs. -/
def Waits (p : Prefetch) (s : PrefetchState) : Prop :=
  ∀ index url dest, s.phase = .waiting index url dest →
    index ∈ runningTasks s.tasks ∧ ∃ entry, p.plan[index]? = some entry ∧ entry.url = url

/-- The verified file of an entry was moved to where the answer says, and the log has it. -/
def Delivered (p : Prefetch) (s t : PrefetchState) (answer : PrefetchAnswer) : Prop :=
  ∃ index entry bytes newer older, p.plan[index]? = some entry ∧ entry.url = answer.url ∧
    t.destinations answer.dest = some bytes ∧ p.Matches entry bytes ∧
    t.log = newer ++ .handedOut index answer.dest :: older ∧ s.log <:+ older

/-- A step gives no answer, or one, which is 1 only for a delivered file. -/
def AnswersWell (p : Prefetch) (s t : PrefetchState) : Prop :=
  t.answers = s.answers ∨
    ∃ answer, t.answers = answer :: s.answers ∧ (answer.result = some true → Delivered p s t answer)

theorem waits_of_ne (elsewhere : ∀ index url dest, s.phase ≠ .waiting index url dest) : Waits p s :=
  fun index url dest phase => absurd phase (elsewhere index url dest)

theorem index?_planned (found : p.index? url = some index) :
    ∃ entry, p.plan[index]? = some entry ∧ entry.url = url := by
  rw [Prefetch.index?] at found
  have selected := List.find?_some found
  exact Option.map_eq_some_iff.mp (of_decide_eq_true selected)

/-- Handing out answers the request; the answer is 1 when the file of the task was moved. -/
theorem handOut_eq (url dest : Text) (renames : Bool) (task : PrefetchTask) (s : PrefetchState) :
    ∃ tasks reserved workers files destinations log, handOut p url dest renames task s = { s with
      tasks, reserved, workers, files, destinations, log
      phase := .select
      cursor := some (task.index + 1)
      answers := { url, dest, result := some (movedFile renames task s).isSome } :: s.answers } ∧
      ((movedFile renames task s).isSome → destinations dest = s.files task.index ∧
        ∃ newer, log = newer ++ .handedOut task.index dest :: s.log) := by
  obtain ⟨tasks, reserved, workers, filled⟩ : ∃ tasks reserved workers,
      (if task.index + 1 < p.plan.length then fill p (task.index + 1) (removeTask dest (movedFile renames task s) task s)
        else removeTask dest (movedFile renames task s) task s) =
      { removeTask dest (movedFile renames task s) task s with tasks, reserved, workers } := by
    split
    · exact fill_eq p _ _
    · exact ⟨_, _, _, rfl⟩
  unfold handOut
  dsimp only
  rw [filled]
  obtain ⟨tasks, reserved, workers, files, newer, same⟩ := respond_eq p task.index
    { url, dest, result := some (movedFile renames task s).isSome }
    { removeTask dest (movedFile renames task s) task s with tasks, reserved, workers }
  refine ⟨tasks, reserved, workers, files, _, _, same, fun moved => ⟨?_, newer, ?_⟩⟩
  · have whole : movedFile renames task s = s.files task.index := by
      unfold movedFile at moved ⊢
      split at moved
      · next ready => exact if_pos ready
      · cases moved
    simp only [removeTask, if_pos moved, Function.update_self]
    exact whole
  · simp only [removeTask, if_pos moved]

/-- A request waits for a task that runs, or is answered. -/
theorem proceed_cases (index : Nat) (url dest : Text) (renames : Bool) (s : PrefetchState) :
    (index ∈ runningTasks s.tasks ∧ proceed p index url dest renames s = { s with phase := .waiting index url dest }) ∨
    ∃ result tasks reserved workers files destinations log, proceed p index url dest renames s = { s with
      tasks, reserved, workers, files, destinations, log
      phase := .select
      cursor := some (index + 1)
      answers := { url, dest, result } :: s.answers } ∧
      (result = some true → (s.files index).isSome ∧ destinations dest = s.files index ∧
        ∃ newer, log = newer ++ .handedOut index dest :: s.log) := by
  unfold proceed
  split
  · obtain ⟨tasks, reserved, workers, files, newer, same⟩ :=
      respond_eq p index { url, dest, result := none } s
    exact .inr ⟨none, tasks, reserved, workers, files, s.destinations, _, same, nofun⟩
  · next task found =>
    have selected := List.find?_some found
    have here : task.index = index := of_decide_eq_true selected
    subst here
    split
    · next running =>
      exact .inl ⟨mem_runningTasks.mpr ⟨task, List.mem_of_find?_eq_some found, rfl, running⟩, rfl⟩
    · obtain ⟨tasks, reserved, workers, files, destinations, log, same, delivered⟩ :=
        handOut_eq (p := p) url dest renames task s
      refine .inr ⟨_, tasks, reserved, workers, files, destinations, log, same, fun moved => ?_⟩
      have isSome : (movedFile renames task s).isSome := Option.some.inj moved
      exact ⟨movedFile_isSome isSome, delivered isSome⟩

theorem proceed_waits (planned : p.plan[index]? = some entry) (named : entry.url = url) (s : PrefetchState) :
    Waits p (proceed p index url dest renames s) := by
  intro other place target phase
  obtain ⟨running, same⟩ | ⟨result, tasks, reserved, workers, files, destinations, log, same, _⟩ :=
    proceed_cases (p := p) index url dest renames s
  · rw [same] at phase ⊢
    cases phase
    exact ⟨running, entry, planned, named⟩
  · rw [same] at phase
    cases phase

theorem proceed_answers (sound : PrefetchSound p s) (planned : p.plan[index]? = some entry) (named : entry.url = url) :
    AnswersWell p s (proceed p index url dest renames s) := by
  obtain ⟨running, same⟩ | ⟨result, tasks, reserved, workers, files, destinations, log, same, delivered⟩ :=
    proceed_cases (p := p) index url dest renames s
  · exact .inl (by rw [same])
  · refine .inr ⟨{ url, dest, result }, by rw [same], fun one => ?_⟩
    obtain ⟨isSome, moved, newer, logged⟩ := delivered one
    obtain ⟨bytes, present⟩ := Option.isSome_iff_exists.mp isSome
    obtain ⟨_, other, found, matching⟩ := sound.files index bytes present
    obtain rfl : other = entry := Option.some.inj (found.symm.trans planned)
    refine ⟨index, other, bytes, newer, s.log, planned, named, ?_, matching, ?_, List.suffix_refl _⟩
    · rw [same]
      exact moved.trans present
    · rw [same]
      exact logged

theorem AnswersWell.of_eq (same : t.answers = s.answers) : AnswersWell p s t := .inl same

/-- Answers of a later part of a step are answers of the step. -/
theorem AnswersWell.trans_left {mid : PrefetchState} (answers : mid.answers = s.answers) (log : s.log <:+ mid.log)
    (well : AnswersWell p mid t) : AnswersWell p s t := by
  rcases well with same | ⟨answer, given, delivered⟩
  · exact .inl (same.trans answers)
  · refine .inr ⟨answer, by rw [given, answers], fun one => ?_⟩
    obtain ⟨index, entry, bytes, newer, older, planned, named, there, matching, logged, suffix⟩ := delivered one
    exact ⟨index, entry, bytes, newer, older, planned, named, there, matching, logged, log.trans suffix⟩

/-- Every step answers well, and leaves a request waiting only for a task that runs. -/
theorem prefetchStep_answers {event : PrefetchEvent} (sound : PrefetchSound p s) (waits : Waits p s)
    (stepped : prefetchStep p s event = some t) : Waits p t ∧ AnswersWell p s t := by
  cases event with
  | request url dest renames =>
    rw [prefetchStep] at stepped
    split at stepped
    · next selects =>
      have refused : Waits p { s with answers := { url, dest, result := none } :: s.answers } ∧
          AnswersWell p s { s with answers := { url, dest, result := none } :: s.answers } :=
        ⟨waits_of_ne fun _ _ _ phase => (by cases selects.symm.trans phase), .inr ⟨_, rfl, fun never => by cases never⟩⟩
      split at stepped
      · cases stepped
        exact refused
      · next index found =>
        obtain ⟨entry, planned, named⟩ := index?_planned found
        rw [planned] at stepped
        dsimp only at stepped
        split at stepped
        · cases stepped
          exact refused
        · cases stepped
          have ready := fill_sound index (discardBefore_sound index sound)
          obtain ⟨tasks, reserved, workers, same⟩ := fill_eq p index (discardBefore index s)
          refine ⟨proceed_waits planned named _, .trans_left ?_ ?_ (proceed_answers ready planned named)⟩
          · rw [same]
            rfl
          · rw [same]
            exact List.suffix_append _ _
    · cases stepped
  | results ready renames =>
    rw [prefetchStep] at stepped
    split at stepped
    · cases stepped
    · split at stepped
      · next selects =>
        obtain ⟨mid, received, rfl⟩ := Option.map_eq_some_iff.mp stepped
        obtain ⟨tasks, workers, rfl⟩ := receive_eq received
        split
        · next cursor _ =>
          obtain ⟨tasks, reserved, workers, same⟩ :=
            fill_eq p cursor (discardBefore cursor { s with tasks, workers })
          rw [same]
          exact ⟨waits_of_ne fun _ _ _ phase => (by cases selects.symm.trans phase), .of_eq rfl⟩
        · exact ⟨waits_of_ne fun _ _ _ phase => (by cases selects.symm.trans phase), .of_eq rfl⟩
      · next index url dest waiting =>
        obtain ⟨mid, received, rfl⟩ := Option.map_eq_some_iff.mp stepped
        obtain ⟨_, entry, planned, named⟩ := waits index url dest waiting
        have ready := fill_sound index (receive_sound sound received)
        obtain ⟨tasks, workers, rfl⟩ := receive_eq received
        obtain ⟨tasks', reserved, workers', same⟩ := fill_eq p index { s with tasks, workers }
        refine ⟨proceed_waits planned named _, .trans_left ?_ ?_ (proceed_answers ready planned named)⟩
        · rw [same]
        · rw [same]
      · cases stepped
  | stop =>
    cases stepped
    exact ⟨waits_of_ne fun _ _ _ phase => (by cases phase), .of_eq rfl⟩
  | take k =>
    rw [prefetchStep] at stepped
    split at stepped
    · cases stepped
      exact ⟨waits, .of_eq rfl⟩
    · cases stepped
  | work k action =>
    rw [prefetchStep] at stepped
    split at stepped
    · next worker _ =>
      obtain ⟨⟨task, second⟩, _, rfl⟩ := Option.map_eq_some_iff.mp stepped
      obtain ⟨workers, files, parts, log, same⟩ := workerAction_eq (p := p) k worker task second s action
      dsimp only
      rw [same]
      exact ⟨waits, .of_eq rfl⟩
    · cases stepped

theorem reachable_waits (reached : Reachable (prefetchMachine p) s) : PrefetchSound p s ∧ Waits p s := by
  refine reached.induction (P := fun s => PrefetchSound p s ∧ Waits p s) ?_ fun _ stepped sound =>
    ⟨prefetchStep_sound sound.1 stepped, (prefetchStep_answers sound.1 sound.2 stepped).1⟩
  rintro s rfl
  exact ⟨prefetchSound_new, waits_of_ne fun _ _ _ phase => by cases phase⟩

end Requests

section Scheduler

/-- The tasks whose files workers are writing. -/
def PrefetchState.writing (s : PrefetchState) : List Nat := s.workers.filterMap fun worker => worker.attempt.map (·.1.index)

theorem writing_sublist (sound : PrefetchSound p s) : s.writing.Sublist s.held := by
  unfold PrefetchState.writing PrefetchState.held
  have each := sound.workers
  generalize s.workers = workers at each
  induction workers with
  | nil => exact .slnil
  | cons worker rest ih =>
    have others := ih fun other member => each other (List.mem_cons_of_mem _ member)
    cases each worker List.mem_cons_self with
    | idle => exact others
    | sent planned => exact others.cons _
    | busy planned => exact others.cons_cons _
    | done there => exact others.cons _

/-- The reservation is what the held tasks weigh and keeps to the budget, and the tasks to the window; a task runs
exactly when one worker has it, and workers have one task each; a request waits only where an answer of a worker is
due; what is handed out was verified after it was last let go; and the answer is 1 in the step that moves the verified
file of the entry. -/
theorem prefetch_scheduler (reached : Reachable (prefetchMachine p) s) :
    s.reserved = (total (·.entry.size) s.tasks : Nat) ∧ s.reserved ≤ p.budget ∧ s.tasks.length ≤ p.window ∧
    (∀ i, (∃ task ∈ s.tasks, task.index = i ∧ task.status = .running) ↔ s.held.count i = 1) ∧
    (∀ worker ∈ s.workers, worker.inbox.length + worker.attempt.toList.length + worker.outbox.length ≤ 1) ∧
    s.held.Nodup ∧ s.writing.Nodup ∧
    (∀ index url dest, s.phase = .waiting index url dest → ∃ worker ∈ s.workers, worker.task = some index ∧
      (worker.inbox ≠ [] ∨ worker.attempt ≠ none ∨ worker.outbox ≠ [])) ∧
    HandsOutFresh s.log ∧
    ∀ event t url dest, prefetchStep p s event = some t → t.answers = { url, dest, result := some true } :: s.answers →
      Delivered p s t { url, dest, result := some true } := by
  obtain ⟨sound, waits⟩ := reachable_waits reached
  have nodup : s.held.Nodup := sound.held.nodup_iff.mpr (nodup_runningTasks sound.keys)
  refine ⟨sound.reserved, sound.within, sound.few, fun i => ?_, fun worker member => ?_, nodup,
    nodup.sublist (writing_sublist sound), fun index url dest phase => ?_, sound.fresh,
    fun event t url dest stepped answered => ?_⟩
  · rw [← mem_runningTasks, ← sound.held.mem_iff]
    constructor
    · exact List.count_eq_one_of_mem nodup
    · intro one
      exact List.count_pos_iff.mp (by omega)
  · cases sound.workers worker member <;> simp
  · obtain ⟨running, _⟩ := waits index url dest phase
    obtain ⟨worker, member, holds⟩ := List.mem_filterMap.mp (sound.held.mem_iff.mpr running)
    refine ⟨worker, member, holds, ?_⟩
    cases sound.workers worker member with
    | idle => cases holds
    | sent planned => exact .inl (List.cons_ne_nil _ _)
    | busy planned => exact .inr (.inl (Option.some_ne_none _))
    | done there => exact .inr (.inr (List.cons_ne_nil _ _))
  · rcases (prefetchStep_answers sound waits stepped).2 with same | ⟨answer, given, delivered⟩
    · exact absurd (same.symm.trans answered).symm (List.cons_ne_self _ _)
    · obtain ⟨rfl, _⟩ := List.cons.inj (answered.symm.trans given)
      exact delivered rfl

/-- Three packages of which the budget holds one at a time, one worker. -/
def threePackages : Prefetch where
  plan := ["a", "b", "c"].map fun url => { url := url.toList, size := 3, sha := "a".toList }
  budget := 4
  window := 2
  workers := 1
  sha512 _ := "a".toList

/-- A worker downloads the package that it is sent. -/
def downloads : List PrefetchEvent := [.take 0, .work 0 (.chunk [7, 7, 7]), .work 0 (.verifies false), .results [0] true]

/-- The first package is asked for, the second one is fetched ahead and skipped, and the third one is asked for. -/
def threePackagesEvents : List PrefetchEvent :=
  .request "a".toList "/tmp/a".toList true :: downloads ++ downloads ++
    .request "c".toList "/tmp/c".toList true :: downloads

theorem prefetch_scheduler_threePackages : ∃ s, Run (prefetchMachine threePackages) threePackages.new threePackagesEvents s ∧
    s.log = [.handedOut 2 "/tmp/c".toList, .verified 2, .discarded 1, .verified 1, .handedOut 0 "/tmp/a".toList, .verified 0] ∧
    HandsOutFresh s.log := by
  have replayed : (replay? (prefetchStep threePackages) threePackages.new threePackagesEvents).any
      (fun s => decide (s.log = [.handedOut 2 "/tmp/c".toList, .verified 2, .discarded 1, .verified 1,
        .handedOut 0 "/tmp/a".toList, .verified 0])) = true := by decide
  obtain ⟨s, run, logged⟩ := exists_run_of_replay? replayed
  exact ⟨s, run, of_decide_eq_true logged, (prefetch_scheduler (run.reachable (.init rfl))).2.2.2.2.2.2.2.2.1⟩

end Scheduler

end LatexRenderer
