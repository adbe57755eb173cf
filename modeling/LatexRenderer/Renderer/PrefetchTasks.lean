import Mathlib.Data.List.Perm.Basic
import LatexRenderer.Model.Renderer.Prefetch

/-! # The invariant of the prefetcher, and the coordinator

Files go away only with tasks that are not running, and what is handed out was verified last. Each routine of the
coordinator keeps this, one lemma for each.
-/

namespace LatexRenderer

open Machine

variable {p : Prefetch} {s t : PrefetchState}

/-- The tasks that workers are down for. -/
def PrefetchState.held (s : PrefetchState) : List Nat := s.workers.filterMap (·.task)

/-- The tasks with the status `running`. -/
def runningTasks (tasks : List PrefetchTask) : List Nat :=
  (tasks.filter fun task => decide (task.status = .running)).map (·.index)

/-- The last thing that happened to the file of a task before it is handed out is that it was verified. -/
def HandsOutFresh (log : List PrefetchRecord) : Prop :=
  ∀ newer index dest older, log = newer ++ .handedOut index dest :: older →
    older.find? (fun record => decide (record.index = index)) = some (.verified index)

/-- A worker has nothing, or one task: on its way, under way, or answered. -/
inductive WorkerSound (p : Prefetch) (files : Nat → Option Octets) : PrefetchWorker → Prop
  | idle : WorkerSound p files ⟨none, [], none, []⟩
  | sent {i : Nat} {entry : PlanEntry} (planned : p.plan[i]? = some entry) :
    WorkerSound p files ⟨some i, [⟨i, entry, .running⟩], none, []⟩
  | busy {i : Nat} {entry : PlanEntry} {second : Bool} (planned : p.plan[i]? = some entry) :
    WorkerSound p files ⟨some i, [], some (⟨i, entry, .running⟩, second), []⟩
  | done {i : Nat} {ok : Bool} (there : ok = true → (files i).isSome) :
    WorkerSound p files ⟨some i, [], none, [ok]⟩

/-- The invariant of the prefetcher. -/
structure PrefetchSound (p : Prefetch) (s : PrefetchState) : Prop where
  keys : (s.tasks.map (·.index)).Nodup
  reserved : s.reserved = (total (·.entry.size) s.tasks : Nat)
  within : s.reserved ≤ p.budget
  few : s.tasks.length ≤ p.window
  planned : ∀ task ∈ s.tasks, p.plan[task.index]? = some task.entry
  held : s.held.Perm (runningTasks s.tasks)
  workers : ∀ worker ∈ s.workers, WorkerSound p s.files worker
  ready : ∀ task ∈ s.tasks, task.status = .ready → (s.files task.index).isSome
  files : ∀ i bytes, s.files i = some bytes →
    s.log.find? (fun record => decide (record.index = i)) = some (.verified i) ∧
      ∃ entry, p.plan[i]? = some entry ∧ p.Matches entry bytes
  fresh : HandsOutFresh s.log

theorem prefetchSound_new : PrefetchSound p p.new where
  keys := List.nodup_nil
  reserved := rfl
  within := Int.natCast_nonneg _
  few := Nat.zero_le _
  planned task member := nomatch member
  held := by
    have none : (List.replicate p.workers PrefetchWorker.new).filterMap (·.task) = [] :=
      List.filterMap_eq_nil_iff.mpr fun worker member => by rw [List.eq_of_mem_replicate member]; rfl
    exact .of_eq none
  workers worker member := by
    obtain rfl := List.eq_of_mem_replicate member
    exact .idle
  ready task member := nomatch member
  files i bytes there := nomatch there
  fresh newer index dest older same := by simp [Prefetch.new] at same

section Log

variable {log : List PrefetchRecord} {record : PrefetchRecord}

/-- Another record keeps the log fresh, when it is no hand-out or of a file that was just verified. -/
theorem HandsOutFresh.cons (fresh : HandsOutFresh log)
    (verified : ∀ index dest, record = .handedOut index dest →
      log.find? (fun record => decide (record.index = index)) = some (.verified index)) :
    HandsOutFresh (record :: log) := by
  intro newer index dest older same
  cases newer with
  | nil =>
    obtain ⟨rfl, rfl⟩ := List.cons.inj same
    exact verified index dest rfl
  | cons first rest => exact fresh rest index dest older (List.cons.inj same).2

theorem HandsOutFresh.discards (fresh : HandsOutFresh log) (old : List PrefetchTask) :
    HandsOutFresh (old.map (PrefetchRecord.discarded ·.index) ++ log) := by
  induction old with
  | nil => exact fresh
  | cons task rest ih => exact HandsOutFresh.cons ih fun index dest same => nomatch same

theorem find?_discards {old : List PrefetchTask} {i : Nat} (other : i ∉ old.map (·.index)) :
    (old.map (PrefetchRecord.discarded ·.index) ++ log).find? (fun record => decide (record.index = i)) =
      log.find? fun record => decide (record.index = i) := by
  induction old with
  | nil => rfl
  | cons task rest ih =>
    have apart : task.index ≠ i ∧ i ∉ rest.map (·.index) := by
      simpa [eq_comm] using other
    have skip : ¬ decide ((PrefetchRecord.discarded task.index).index = i) = true := fun same =>
      apart.1 (of_decide_eq_true same)
    exact (List.find?_cons_of_neg (p := fun record : PrefetchRecord => decide (record.index = i)) skip).trans (ih apart.2)

end Log

section Tasks

variable {tasks : List PrefetchTask} {task other : PrefetchTask} {i : Nat}

theorem task_unique (keys : (tasks.map (·.index)).Nodup) (first : task ∈ tasks) (second : other ∈ tasks)
    (same : task.index = other.index) : task = other :=
  List.inj_on_of_nodup_map keys first second same

theorem mem_runningTasks : i ∈ runningTasks tasks ↔ ∃ task ∈ tasks, task.index = i ∧ task.status = .running := by
  simp only [runningTasks, List.mem_map, List.mem_filter, decide_eq_true_eq]
  constructor
  · rintro ⟨task, ⟨member, running⟩, same⟩
    exact ⟨task, member, same, running⟩
  · rintro ⟨task, member, same, running⟩
    exact ⟨task, ⟨member, running⟩, same⟩

theorem nodup_runningTasks (keys : (tasks.map (·.index)).Nodup) : (runningTasks tasks).Nodup :=
  keys.sublist (List.filter_sublist.map _)

/-- Tasks that run are not affected where only others go. -/
theorem runningTasks_filter {keep : PrefetchTask → Bool} (all : ∀ task ∈ tasks, task.status = .running → keep task = true) :
    runningTasks (tasks.filter keep) = runningTasks tasks := by
  rw [runningTasks, List.filter_filter, runningTasks]
  congr 1
  refine List.filter_congr fun task member => ?_
  by_cases running : task.status = .running
  · rw [all task member running, Bool.and_true]
  · rw [decide_eq_false running, Bool.false_and]

theorem runningTasks_settle {ok : Bool} :
    runningTasks (tasks.map (·.settle i ok)) = (runningTasks tasks).filter fun j => decide (j ≠ i) := by
  induction tasks with
  | nil => rfl
  | cons task rest ih =>
    rw [runningTasks] at ih ⊢
    by_cases same : task.index = i
    · have settled : (task.settle i ok).status ≠ .running := by
        rw [PrefetchTask.settle, if_pos same]
        cases ok <;> simp
      rw [List.map_cons, List.filter_cons_of_neg (by simpa using settled), ih, runningTasks, runningTasks]
      by_cases running : task.status = .running
      · rw [List.filter_cons_of_pos (by simpa using running), List.map_cons, List.filter_cons_of_neg (by simpa using same)]
      · rw [List.filter_cons_of_neg (by simpa using running)]
    · have kept : task.settle i ok = task := if_neg same
      rw [List.map_cons, kept, runningTasks]
      by_cases running : task.status = .running
      · rw [List.filter_cons_of_pos (by simpa using running), List.filter_cons_of_pos (by simpa using running),
          List.map_cons, List.map_cons, List.filter_cons_of_pos (by simpa using same), ih, runningTasks]
      · rw [List.filter_cons_of_neg (by simpa using running), List.filter_cons_of_neg (by simpa using running), ih,
          runningTasks]

theorem map_index_settle {ok : Bool} : (tasks.map (·.settle i ok)).map (·.index) = tasks.map (·.index) := by
  rw [List.map_map]
  refine List.map_congr_left fun task _ => ?_
  show (task.settle i ok).index = task.index
  unfold PrefetchTask.settle
  split <;> rfl

theorem total_settle {ok : Bool} : total (·.entry.size) (tasks.map (·.settle i ok)) = total (·.entry.size) tasks := by
  rw [total, total, List.map_map]
  congr 1
  refine List.map_congr_left fun task _ => ?_
  show (task.settle i ok).entry.size = task.entry.size
  unfold PrefetchTask.settle
  split <;> rfl

end Tasks

section Coordinator

variable {index : Nat}

theorem PrefetchSound.running_of_held (sound : PrefetchSound p s) {worker : PrefetchWorker} {i : Nat}
    (member : worker ∈ s.workers) (holds : worker.task = some i) : i ∈ runningTasks s.tasks :=
  sound.held.subset (List.mem_filterMap.mpr ⟨worker, member, holds⟩)

/-- Files of tasks that do not run may go, with what is said of them. -/
theorem WorkerSound.shrink {files fewer : Nat → Option Octets} {worker : PrefetchWorker}
    (sound : WorkerSound p files worker) (same : ∀ i, worker.task = some i → fewer i = files i) :
    WorkerSound p fewer worker := by
  cases sound with
  | idle => exact .idle
  | sent planned => exact .sent planned
  | busy planned => exact .busy planned
  | done there => exact .done (by rwa [same _ rfl])

theorem WorkerSound.grow {files more : Nat → Option Octets} {worker : PrefetchWorker}
    (sound : WorkerSound p files worker) (kept : ∀ i, (files i).isSome → (more i).isSome) :
    WorkerSound p more worker := by
  cases sound with
  | idle => exact .idle
  | sent planned => exact .sent planned
  | busy planned => exact .busy planned
  | done there => exact .done fun ok => kept _ (there ok)

theorem discardBefore_sound (index : Nat) (sound : PrefetchSound p s) : PrefetchSound p (discardBefore index s) := by
  have kept : ∀ task ∈ s.tasks, task.Stays index →
      task.index ∉ (s.tasks.filter fun task => !decide (task.Stays index)).map (·.index) := by
    intro task member stays old
    obtain ⟨other, listed, same⟩ := List.mem_map.mp old
    obtain ⟨there, leaves⟩ := List.mem_filter.mp listed
    obtain rfl := task_unique sound.keys there member same
    simp [stays] at leaves
  refine ⟨sound.keys.sublist (List.filter_sublist.map _), ?_, ?_, (List.length_filter_le _ _).trans sound.few,
    fun task member => sound.planned task (List.mem_filter.mp member).1, ?_, fun worker member => ?_,
    fun task member ready => ?_, fun i bytes there => ?_, sound.fresh.discards _⟩
  · have whole : total (·.entry.size) (s.tasks.filter fun task => decide (task.Stays index)) +
        total (·.entry.size) (s.tasks.filter fun task => !decide (task.Stays index)) = total (·.entry.size) s.tasks :=
      total_filter_add_filter_not _ _
    have before := sound.reserved
    simp only [discardBefore]
    omega
  · have before := sound.within
    simp only [discardBefore]
    omega
  · refine sound.held.trans (.of_eq ?_)
    exact (runningTasks_filter fun task _ running => decide_eq_true (.inr running)).symm
  · refine (sound.workers worker member).shrink fun i holds => if_neg ?_
    obtain ⟨task, there, rfl, running⟩ := mem_runningTasks.mp (sound.running_of_held member holds)
    exact kept task there (.inr running)
  · obtain ⟨there, stays⟩ := List.mem_filter.mp member
    have left : (discardBefore index s).files task.index = s.files task.index :=
      if_neg (kept task there (of_decide_eq_true stays))
    rw [left]
    exact sound.ready task there ready
  · simp only [discardBefore] at there ⊢
    split at there
    · cases there
    · next other =>
      rw [find?_discards other]
      exact sound.files i bytes there

/-- A task goes to an idle worker, and nothing else changes. -/
theorem handTask_spec (task : PrefetchTask) {workers : List PrefetchWorker}
    (idle : ¬ ∀ worker ∈ workers, worker.task ≠ none) :
    ∃ before worker after, workers = before ++ worker :: after ∧ worker.task = none ∧
      handTask task workers =
        before ++ { worker with task := some task.index, inbox := worker.inbox ++ [task] } :: after := by
  induction workers with
  | nil => exact absurd (fun worker member => (nomatch member)) idle
  | cons first rest ih =>
    by_cases free : first.task = none
    · exact ⟨[], first, rest, rfl, free, if_pos free⟩
    · obtain ⟨before, worker, after, rfl, idle, handed⟩ := ih fun all => idle fun worker member => by
        rcases List.mem_cons.mp member with rfl | later
        · exact free
        · exact all worker later
      exact ⟨first :: before, worker, after, rfl, idle, by rw [handTask, if_neg free, handed, List.cons_append]⟩

theorem startTask_sound (sound : PrefetchSound p s) {i : Nat} {entry : PlanEntry}
    (idle : ¬ ∀ worker ∈ s.workers, worker.task ≠ none) (room : s.tasks.length < p.window)
    (absent : i ∉ s.tasks.map (·.index)) (planned : p.plan[i]? = some entry)
    (within : s.reserved + (entry.size : Nat) ≤ p.budget) :
    PrefetchSound p (startTask { index := i, entry, status := .running } s) := by
  obtain ⟨before, worker, after, shape, free, handed⟩ :=
    handTask_spec { index := i, entry, status := .running } idle
  refine ⟨List.nodup_cons.mpr ⟨absent, sound.keys⟩, ?_, within, room, fun task member => ?_, ?_, fun other member => ?_,
    fun task member ready => ?_, sound.files, sound.fresh⟩
  · have total := sound.reserved
    simp only [startTask, total_cons]
    omega
  · rcases List.mem_cons.mp member with rfl | old
    · exact planned
    · exact sound.planned task old
  · have running : runningTasks (startTask { index := i, entry, status := .running } s).tasks = i :: runningTasks s.tasks := rfl
    have holders : (startTask { index := i, entry, status := .running } s).held =
        before.filterMap (·.task) ++ i :: after.filterMap (·.task) := by
      rw [PrefetchState.held, startTask, handed, List.filterMap_append]
      rfl
    have old : s.held = before.filterMap (·.task) ++ after.filterMap (·.task) := by
      rw [PrefetchState.held, shape, List.filterMap_append, List.filterMap_cons_none free]
    rw [running, holders]
    exact List.perm_middle.trans ((old ▸ sound.held).cons i)
  · rw [startTask, handed] at member
    have there : worker ∈ s.workers := by rw [shape]; simp
    have new : WorkerSound p s.files
        { worker with task := some i, inbox := worker.inbox ++ [{ index := i, entry, status := .running }] } := by
      have old := sound.workers worker there
      cases old with
      | idle => exact .sent planned
      | _ => cases free
    rcases List.mem_append.mp member with left | right
    · exact sound.workers other (by rw [shape]; exact List.mem_append_left _ left)
    · rcases List.mem_cons.mp right with rfl | later
      · exact new
      · exact sound.workers other (by rw [shape]; simp [later])
  · rcases List.mem_cons.mp member with rfl | old
    · cases ready
    · exact sound.ready task old ready

theorem fillLoop_sound (indices : List Nat) (sound : PrefetchSound p s) : PrefetchSound p (fillLoop p indices s) := by
  induction indices generalizing s with
  | nil => exact sound
  | cons i rest ih =>
    rw [fillLoop]
    split
    · exact sound
    · next idle =>
      split
      · exact sound
      · next room =>
        split
        · exact ih sound
        · next absent =>
          cases planned : p.plan[i]? with
          | none => exact sound
          | some entry =>
            dsimp only
            split
            · exact ih sound
            · split
              · exact sound
              · next within =>
                exact ih (startTask_sound sound idle (Nat.lt_of_not_le room) absent planned (Int.not_lt.mp within))

theorem fill_sound (index : Nat) (sound : PrefetchSound p s) : PrefetchSound p (fill p index s) :=
  fillLoop_sound _ sound

/-- A worker at a position stands between the others. -/
theorem worker_at {workers : List PrefetchWorker} {worker : PrefetchWorker} {k : Nat}
    (found : workers[k]? = some worker) :
    ∃ before after, workers = before ++ worker :: after ∧ ∀ new, workers.set k new = before ++ new :: after := by
  obtain ⟨bound, rfl⟩ := List.getElem?_eq_some_iff.mp found
  refine ⟨workers.take k, workers.drop (k + 1), ?_, fun new => List.set_eq_take_append_cons_drop.trans (if_pos bound)⟩
  rw [← List.drop_eq_getElem_cons bound, List.take_append_drop]

theorem receiveFrom_sound {k : Nat} (sound : PrefetchSound p s) (received : receiveFrom k s = some t) :
    PrefetchSound p t := by
  unfold receiveFrom at received
  split at received
  next i inbox attempt ok outbox found =>
    cases received
    obtain ⟨before, after, shape, replaced⟩ := worker_at found
    have there : (⟨some i, inbox, attempt, ok :: outbox⟩ : PrefetchWorker) ∈ s.workers := by rw [shape]; simp
    have holders : s.held = before.filterMap (·.task) ++ i :: after.filterMap (·.task) := by
      rw [PrefetchState.held, shape, List.filterMap_append]
      rfl
    have old := sound.workers _ there
    obtain ⟨rfl, rfl, rfl, present⟩ : inbox = [] ∧ attempt = none ∧ outbox = [] ∧ (ok = true → (s.files i).isSome) := by
      cases old with
      | done present => exact ⟨rfl, rfl, rfl, present⟩
    refine ⟨?_, ?_, sound.within, ?_, fun task member => ?_, ?_, fun worker member => ?_, fun task member ready => ?_,
      sound.files, sound.fresh⟩
    · show ((s.tasks.map (·.settle i ok)).map (·.index)).Nodup
      rw [map_index_settle]
      exact sound.keys
    · exact sound.reserved.trans (congrArg _ total_settle.symm)
    · exact (List.length_map _).trans_le sound.few
    · obtain ⟨other, listed, rfl⟩ := List.mem_map.mp member
      have planned := sound.planned other listed
      unfold PrefetchTask.settle
      split <;> exact planned
    · have nodup : s.held.Nodup := sound.held.nodup_iff.mpr (nodup_runningTasks sound.keys)
      have rest : (before.filterMap (·.task) ++ after.filterMap (·.task)) = s.held.filter fun j => decide (j ≠ i) := by
        have apart := List.nodup_middle.mp (holders ▸ nodup)
        rw [holders, List.filter_append, List.filter_cons_of_neg (by simp), ← List.filter_append]
        refine (List.filter_eq_self.mpr fun j member => decide_eq_true (show j ≠ i from fun same => ?_)).symm
        exact (List.nodup_cons.mp apart).1 (same ▸ member)
      have now : PrefetchState.held { s with
          workers := s.workers.set k ⟨none, [], none, []⟩, tasks := s.tasks.map (·.settle i ok) } =
          before.filterMap (·.task) ++ after.filterMap (·.task) := by
        simp only [PrefetchState.held, replaced, List.filterMap_append]
        rfl
      rw [now, rest, runningTasks_settle]
      exact sound.held.filter _
    · rw [replaced] at member
      rcases List.mem_append.mp member with left | right
      · exact sound.workers worker (by rw [shape]; exact List.mem_append_left _ left)
      · rcases List.mem_cons.mp right with rfl | later
        · exact .idle
        · exact sound.workers worker (by rw [shape]; simp [later])
    · obtain ⟨other, listed, rfl⟩ := List.mem_map.mp member
      by_cases same : other.index = i
      · rw [PrefetchTask.settle, if_pos same] at ready ⊢
        cases ok with
        | true => exact same ▸ present rfl
        | false => cases ready
      · rw [PrefetchTask.settle, if_neg same] at ready ⊢
        exact sound.ready other listed ready
  next => cases received

theorem receive_sound {ready : List Nat} (sound : PrefetchSound p s) (received : receive ready s = some t) :
    PrefetchSound p t := by
  induction ready generalizing s with
  | nil =>
    cases received
    exact sound
  | cons k rest ih =>
    obtain ⟨mid, first, later⟩ := Option.bind_eq_some_iff.mp received
    exact ih (receiveFrom_sound sound first) later

/-- What the specification keeps, and where the coordinator is, do not matter. -/
theorem PrefetchSound.restate (sound : PrefetchSound p s) (phase : PrefetchPhase) (cursor : Option Nat)
    (answers : List PrefetchAnswer) : PrefetchSound p { s with phase, cursor, answers } :=
  ⟨sound.keys, sound.reserved, sound.within, sound.few, sound.planned, sound.held, sound.workers, sound.ready,
    sound.files, sound.fresh⟩

theorem respond_sound {answer : PrefetchAnswer} (sound : PrefetchSound p s) :
    PrefetchSound p (respond p index answer s) :=
  fill_sound _ (discardBefore_sound _ (sound.restate _ _ _))

/-- A settled task leaves, and its file with it. -/
theorem removeTask_sound {dest : Text} {moved : Option Octets} {task : PrefetchTask} (sound : PrefetchSound p s)
    (member : task ∈ s.tasks) (settled : task.status ≠ .running) (there : moved.isSome → (s.files task.index).isSome) :
    PrefetchSound p (removeTask dest moved task s) := by
  have gone : ∀ other ∈ s.tasks, other.status = .running → other.index ≠ task.index := fun other listed running same =>
    settled (task_unique sound.keys listed member same ▸ running)
  have weight : total (·.entry.size) s.tasks = task.entry.size +
      total (·.entry.size) (s.tasks.filter fun other => decide (other.index ≠ task.index)) := by
    have nodup := List.Nodup.of_map _ sound.keys
    have erased : s.tasks.filter (fun other => decide (other.index ≠ task.index)) = s.tasks.erase task := by
      rw [nodup.erase_eq_filter]
      refine List.filter_congr fun other listed => ?_
      by_cases same : other = task
      · simp [same]
      · have apart : other.index ≠ task.index := fun equal => same (task_unique sound.keys listed member equal)
        simp [same, apart]
    rw [erased, total, total, ← List.sum_cons]
    exact ((List.perm_cons_erase member).map _).sum_eq
  have about : (if moved.isSome then PrefetchRecord.handedOut task.index dest else .discarded task.index).index =
      task.index := by
    split <;> rfl
  have reserved := sound.reserved
  have within := sound.within
  refine ⟨sound.keys.sublist (List.filter_sublist.map _), ?_, ?_, (List.length_filter_le _ _).trans sound.few,
    fun other listed => sound.planned other (List.mem_filter.mp listed).1, ?_, fun worker listed => ?_,
    fun other listed ready => ?_, fun i bytes present => ?_, sound.fresh.cons fun i place same => ?_⟩
  · simp only [removeTask]
    omega
  · simp only [removeTask]
    omega
  · exact sound.held.trans (.of_eq (runningTasks_filter fun other listed running =>
      decide_eq_true (gone other listed running)).symm)
  · refine (sound.workers worker listed).shrink fun i holds => Function.update_of_ne ?_ _ _
    obtain ⟨other, within, rfl, running⟩ := mem_runningTasks.mp (sound.running_of_held listed holds)
    exact gone other within running
  · obtain ⟨within, other⟩ := List.mem_filter.mp listed
    have kept : (removeTask dest moved task s).files _ = s.files _ := Function.update_of_ne (of_decide_eq_true other) _ _
    rw [kept]
    exact sound.ready _ within ready
  · have apart : i ≠ task.index := by
      rintro rfl
      have emptied : (removeTask dest moved task s).files task.index = none := Function.update_self _ _ _
      rw [emptied] at present
      cases present
    have kept : (removeTask dest moved task s).files i = s.files i := Function.update_of_ne apart _ _
    obtain ⟨verified, planned⟩ := sound.files i bytes (kept ▸ present)
    refine ⟨.trans ?_ verified, planned⟩
    exact List.find?_cons_of_neg (p := fun record : PrefetchRecord => decide (record.index = i)) fun same =>
      apart (about ▸ of_decide_eq_true same).symm
  · split at same
    · next isSome =>
      obtain ⟨bytes, present⟩ := Option.isSome_iff_exists.mp (there isSome)
      cases same
      exact (sound.files _ bytes present).1
    · cases same

theorem movedFile_isSome {renames : Bool} {task : PrefetchTask} (moves : (movedFile renames task s).isSome) :
    (s.files task.index).isSome := by
  unfold movedFile at moves
  split at moves
  · exact moves
  · cases moves

theorem handOut_sound {url dest : Text} {renames : Bool} {task : PrefetchTask} (sound : PrefetchSound p s)
    (member : task ∈ s.tasks) (settled : task.status ≠ .running) : PrefetchSound p (handOut p url dest renames task s) := by
  have left : PrefetchSound p (removeTask dest (movedFile renames task s) task s) :=
    removeTask_sound sound member settled movedFile_isSome
  unfold handOut
  dsimp only
  split
  · exact respond_sound (fill_sound _ left)
  · exact respond_sound left

theorem proceed_sound {url dest : Text} {renames : Bool} (sound : PrefetchSound p s) :
    PrefetchSound p (proceed p index url dest renames s) := by
  unfold proceed
  split
  · exact respond_sound sound
  · next task found =>
    split
    · exact sound.restate _ _ _
    · next settled => exact handOut_sound sound (List.mem_of_find?_eq_some found) settled

end Coordinator

end LatexRenderer
