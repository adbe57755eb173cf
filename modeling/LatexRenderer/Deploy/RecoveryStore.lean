import LatexRenderer.Model.Deploy.RecoveryStore

/-! # Whether a recovery point survives a new one

Collecting exempts the newest point from the limits of number and room, but not from the limit of age. So a point
survives every run of `create` just when one of the stored points is young enough when it starts, or when a damaged
point stops the collection.
-/

namespace LatexRenderer.RecoveryStore

open Machine

variable {policy : Policy} {options : CollectOptions} {request : CreateOptions} {before disk : Disk}

section Order

theorem Point.newer_iff {first second : Point} : first.newer second = true ↔
    second.createdAt < first.createdAt ∨ second.createdAt = first.createdAt ∧ second.id ≤ first.id :=
  decide_eq_true_iff

theorem Point.newer_trans (first second third : Point) (left : first.newer second = true)
    (right : second.newer third = true) : first.newer third = true := by
  rw [Point.newer_iff] at left right ⊢
  rcases left with left | ⟨left, names⟩
  · left
    rcases right with right | ⟨right, _⟩ <;> omega
  · rcases right with right | ⟨right, names'⟩
    · left
      omega
    · exact .inr ⟨right.trans left, String.le_trans names' names⟩

theorem Point.newer_total (first second : Point) : (first.newer second || second.newer first) = true := by
  rw [Bool.or_eq_true, Point.newer_iff, Point.newer_iff]
  rcases lt_trichotomy first.createdAt second.createdAt with earlier | same | later
  · exact .inr (.inl earlier)
  · rcases String.le_total first.id second.id with names | names
    · exact .inr (.inr ⟨same, names⟩)
    · exact .inl (.inr ⟨same.symm, names⟩)
  · exact .inl (.inl later)

/-- The newest of the points. -/
def Disk.Newest (disk : Disk) (newest : Point) : Prop :=
  newest ∈ disk.points ∧ ∀ point ∈ disk.points, newest.newer point = true

theorem Disk.ext_id (disk : Disk) {first second : Point} (member : first ∈ disk.points) (other : second ∈ disk.points)
    (same : first.id = second.id) : first = second := List.inj_on_of_nodup_map disk.distinct member other same

theorem Disk.Newest.index {newest : Point} (isNewest : disk.Newest newest) {index : Nat}
    (listed : (newest, index) ∈ (disk.points.mergeSort Point.newer).zipIdx) : index = 0 := by
  by_contra later
  obtain ⟨bound, same⟩ := List.mem_zipIdx' listed
  have sorted := List.pairwise_mergeSort Point.newer_trans Point.newer_total disk.points
  have permuted := List.mergeSort_perm disk.points Point.newer
  have positive : 0 < index := Nat.pos_of_ne_zero later
  have ahead := List.pairwise_iff_getElem.mp sorted 0 index (by omega) bound positive
  have first : (disk.points.mergeSort Point.newer)[0] ∈ disk.points := permuted.mem_iff.mp (List.getElem_mem _)
  have behind := isNewest.2 _ first
  rw [← same, Point.newer_iff] at ahead
  rw [Point.newer_iff] at behind
  have names : (disk.points.mergeSort Point.newer)[0].id = newest.id := by
    rcases ahead with ahead | ⟨_, left⟩
    · omega
    · rcases behind with behind | ⟨_, right⟩
      · omega
      · exact String.le_antisymm right left
  have equal := disk.ext_id first isNewest.1 names
  have nodup : (disk.points.mergeSort Point.newer).Nodup := permuted.nodup_iff.mpr (.of_map _ disk.distinct)
  have positions := (nodup.getElem_inj_iff).mp (equal.trans same)
  omega

theorem Disk.exists_newest {point : Point} (member : point ∈ disk.points) : ∃ newest, disk.Newest newest := by
  have sorted := List.pairwise_mergeSort Point.newer_trans Point.newer_total disk.points
  have permuted := List.mergeSort_perm disk.points Point.newer
  cases shape : disk.points.mergeSort Point.newer with
  | nil =>
    have never := permuted.mem_iff.mpr member
    rw [shape] at never
    cases never
  | cons newest rest =>
    rw [shape] at sorted permuted
    refine ⟨newest, permuted.mem_iff.mp List.mem_cons_self, fun other listed => ?_⟩
    rcases List.mem_cons.mp (permuted.mem_iff.mpr listed) with rfl | later
    · exact Point.newer_iff.mpr (.inr ⟨rfl, String.le_refl _⟩)
    · exact (List.pairwise_cons.mp sorted).1 other later

end Order

section Keeping

/-- Whatever happens, the process keeps the property wherever it stands and ends. -/
abbrev Keeps (P : Disk → Prop) {α : Type} (process : Operation α) (disk : Disk) : Prop :=
  process.wp Process.anyAnswer (fun _ => P) (fun _ => P) (fun _ => P) disk

/-- A property of the points. -/
def OfPoints (P : Disk → Prop) : Prop := ∀ first second : Disk, second.points = first.points → P first → P second

variable {P : Disk → Prop}

theorem step_keeps {site : Site} (held : P disk) : Keeps P (step site) disk :=
  Process.wp_ask held (fun _ => held) fun _ _ _ => held

theorem measure_keeps {site : Site} (held : P disk) : Keeps P (measure site) disk :=
  Process.wp_ask held (fun _ => held) fun _ _ _ => held

theorem keeps_bind {α β : Type} {first : Operation α} {next : α → Operation β} (keeps : Keeps P first disk)
    (rest : ∀ value t, P t → Keeps P (next value) t) : Keeps P (first >>= next) disk :=
  Process.wp_bind.mpr (keeps.mono rest (fun _ _ held => held) fun _ _ held => held)

theorem removeTrash_keeps (ofPoints : OfPoints P) (name : String) (held : P disk) : Keeps P (removeTrash name) disk := by
  apply keeps_bind (step_keeps held)
  intro _ t held
  have after : P { t with trash := t.trash.filter fun entry => decide (entry ≠ name) } := ofPoints t _ rfl held
  apply keeps_bind (Process.wp_modify held (fun _ => held) (fun _ => after) after)
  intro _ u held
  exact step_keeps held

theorem removeWork_keeps (ofPoints : OfPoints P) (name : String) (held : P disk) : Keeps P (removeWork name) disk := by
  apply keeps_bind (step_keeps held)
  intro _ t held
  have after : P { t with staging := t.staging.filter fun entry => decide (entry ≠ name) } := ofPoints t _ rfl held
  apply keeps_bind (Process.wp_modify held (fun _ => held) (fun _ => after) after)
  intro _ u held
  exact step_keeps held

theorem discard_keeps (ofPoints : OfPoints P) {id : String} (discards : ∀ t, P t → P (t.discard id)) (held : P disk) :
    Keeps P (discard id) disk := by
  apply keeps_bind (step_keeps held)
  intro _ t held
  have after : P (t.discard id) := discards t held
  apply keeps_bind (Process.wp_modify held (fun _ => held) (fun _ => after) after)
  intro _ u held
  apply keeps_bind (step_keeps held)
  intro _ v held
  apply keeps_bind (step_keeps held)
  intro _ w held
  exact removeTrash_keeps ofPoints id held

/-- What a collection may discard: a point that is expired, or one behind the newest. -/
def Discardable (policy : Policy) (now : Int) (entry : Point × Nat) : Prop :=
  policy.expired now entry.1 = true ∨ 0 < entry.2

theorem collectPoint_keeps (ofPoints : OfPoints P) {entry : Point × Nat}
    (discards : Discardable policy options.now entry → ∀ t, P t → P (t.discard entry.1.id)) (held : P disk) :
    Keeps P (collectPoint policy options entry) disk := by
  unfold collectPoint
  split
  · exact held
  · have decides : (pressureAt policy options entry.2).wp Process.anyAnswer
        (fun pressure t => P t ∧ (pressure = true → 0 < entry.2)) (fun _ => P) (fun _ => P) disk := by
      unfold pressureAt
      split
      · next behind =>
        refine Process.wp_bind.mpr (Process.wp_ask held (fun _ => held) fun _ used _ => ?_)
        exact ⟨held, fun _ => behind⟩
      · exact ⟨held, fun never => (nomatch never)⟩
    refine Process.wp_bind.mpr (decides.mono ?_ (fun _ _ held => held) fun _ _ held => held)
    rintro pressure t ⟨held, behind⟩
    split
    · next due =>
      have count := policy.positive.2.1
      refine discard_keeps ofPoints (discards ?_) held
      rcases due with expired | crowded | full
      · exact .inl expired
      · exact .inr (by omega)
      · exact .inr (behind full)
    · exact held

/-- A collection keeps a property of the points that holds after every discard it may make. -/
theorem collect_keeps (ofPoints : OfPoints P)
    (discards : ∀ t, P t → (∀ point ∈ t.points, point.intact = true) →
      ∀ entry ∈ (t.points.mergeSort Point.newer).zipIdx, Discardable policy options.now entry →
      ∀ u, P u → P (u.discard entry.1.id)) (held : P disk) :
    Keeps P (collect policy options) disk := by
  apply keeps_bind (step_keeps held)
  intro _ t held
  refine Process.wp_bind.mpr (Process.wp_ask held (fun _ => held) fun _ trash _ => ?_)
  apply keeps_bind (Process.wp_each (fun name _ u held => removeTrash_keeps ofPoints name held) held)
  intro _ u held
  apply keeps_bind (step_keeps held)
  intro _ v held
  refine Process.wp_bind.mpr (Process.wp_ask held (fun _ => held) fun _ staging _ => ?_)
  apply keeps_bind (Process.wp_each (fun name _ u held => removeWork_keeps ofPoints name held) held)
  intro _ w held
  refine Process.wp_bind.mpr (Process.wp_ask held (fun _ => held) fun _ listed read => ?_)
  split at read
  · next intact =>
    cases read
    refine Process.wp_each (fun entry member x heldNow => ?_) held
    exact collectPoint_keeps ofPoints
      (discards w held (List.all_eq_true.mp intact) entry (List.mem_reverse.mp member)) heldNow
  · cases read

end Keeping

section Survival

/-- A point exists, and the newest one was not discarded before a new one was in its place. -/
def Survives (before disk : Disk) : Prop :=
  (∃ point ∈ disk.points, point.intact = true) ∧ ∀ newest, before.Newest newest →
    newest ∈ disk.points ∨ ∃ point ∈ disk.points, point ∉ before.points ∧ point.intact = true

theorem survives_ofPoints : OfPoints (Survives before) := by
  intro first second same survives
  unfold Survives
  rw [same]
  exact survives

theorem Survives.more {first second : Disk} (survives : Survives before first)
    (more : ∀ point ∈ first.points, point ∈ second.points) : Survives before second := by
  obtain ⟨⟨point, member, intact⟩, newest⟩ := survives
  refine ⟨⟨point, more point member, intact⟩, fun other isNewest => ?_⟩
  rcases newest other isNewest with kept | ⟨fresh, listed, unknown⟩
  · exact .inl (more other kept)
  · exact .inr ⟨fresh, more fresh listed, unknown⟩

theorem Disk.place_points {point : Point} {next : Disk} (placed : disk.place point = .ok next) :
    next.points = point :: disk.points := by
  unfold Disk.place at placed
  split at placed
  · cases placed
    rfl
  · cases placed

theorem preparePoint_keeps {single : Nat} (survives : Survives before disk) :
    Keeps (Survives before) (preparePoint request single) disk := by
  apply keeps_bind (measure_keeps survives)
  intro archive t survives
  apply keeps_bind (Process.wp_require.mpr ⟨fun _ => survives, fun _ => survives⟩)
  intro _ u survives
  refine keeps_bind (Process.wp_act.mpr ⟨survives, fun reply _ => ?_⟩) fun _ v survives => step_keeps survives
  have moved : ∀ next, u.place { id := request.id, createdAt := request.now, bytes := archive.1, intact := true } = .ok next →
      Survives before next := fun next placed =>
    survives.more fun point member => by
      rw [Disk.place_points placed]
      exact List.mem_cons_of_mem _ member
  cases placed : u.place { id := request.id, createdAt := request.now, bytes := archive.1, intact := true } with
  | ok next => cases reply <;> simp [Reply.apply, placed, Except.map, moved next placed, survives]
  | error failure => cases reply <;> simp [Reply.apply, placed, Except.map, survives]

/-- A point survives when collections keep a property that implies it. -/
theorem create_keeps {P : Disk → Prop} (implies : ∀ t, P t → Survives before t)
    (collects : ∀ options : CollectOptions, options.now = request.now → ∀ t, P t → Keeps P (collect policy options) t)
    (held : P disk) : Keeps (Survives before) (create policy request) disk := by
  have weaken : ∀ {α : Type} {process : Operation α} {t : Disk}, Keeps P process t →
      process.wp Process.anyAnswer (fun _ => P) (fun _ => Survives before) (fun _ => Survives before) t :=
    fun keeps => keeps.mono (fun _ _ held => held) (fun _ t held => implies t held) fun _ t held => implies t held
  refine Process.wp_bind.mpr ((weaken (collects _ rfl disk held)).mono ?_ (fun _ _ h => h) fun _ _ h => h)
  intro _ t held
  refine Process.wp_bind.mpr ((weaken (measure_keeps held)).mono ?_ (fun _ _ h => h) fun _ _ h => h)
  intro inventory t held
  refine Process.wp_bind.mpr ((weaken (measure_keeps held)).mono ?_ (fun _ _ h => h) fun _ _ h => h)
  intro database t held
  rw [Process.wp_bind, Process.wp_require]
  refine ⟨fun _ => ?_, fun _ => implies t held⟩
  refine Process.wp_bind.mpr ((weaken (collects _ rfl t held)).mono ?_ (fun _ _ h => h) fun _ _ h => h)
  intro _ t held
  have survives := implies t held
  apply keeps_bind (measure_keeps survives)
  intro free t survives
  apply keeps_bind (measure_keeps survives)
  intro used t survives
  apply keeps_bind (Process.wp_require.mpr ⟨fun _ => survives, fun _ => survives⟩)
  intro _ t survives
  have after : Survives before { t with staging := request.work :: t.staging } := survives_ofPoints t _ rfl survives
  apply keeps_bind (Process.wp_modify survives (fun _ => survives) (fun _ => after) after)
  intro _ t survives
  apply keeps_bind (Process.wp_outcome.mpr (preparePoint_keeps survives))
  intro result t survives
  apply keeps_bind (removeWork_keeps survives_ofPoints request.work survives)
  intro _ t survives
  exact Process.wp_ofExcept.mpr ⟨fun _ _ => survives, fun _ _ => survives⟩

/-- The newest point is there, and no point was added. -/
structure Kept (before : Disk) (newest : Point) (disk : Disk) : Prop where
  member : newest ∈ disk.points
  fewer : ∀ point ∈ disk.points, point ∈ before.points

/-- A collection keeps the newest point when it is not expired. -/
theorem collect_keeps_newest {newest : Point} (isNewest : before.Newest newest)
    (young : policy.expired options.now newest = false) (kept : Kept before newest disk) :
    Keeps (Kept before newest) (collect policy options) disk := by
  have ofPoints : OfPoints (Kept before newest) := by
    intro first second same kept
    exact ⟨same ▸ kept.member, fun point member => kept.fewer point (same ▸ member)⟩
  refine collect_keeps ofPoints (fun t kept _ entry listed discardable u keptNow => ?_) kept
  have other : newest.id ≠ entry.1.id := by
    intro same
    obtain ⟨bound, stands⟩ := List.mem_zipIdx' listed
    have stands : entry.1 ∈ t.points := List.mem_mergeSort.mp (stands ▸ List.getElem_mem bound)
    obtain rfl : newest = entry.1 := before.ext_id isNewest.1 (kept.fewer _ stands) same
    rcases discardable with expired | behind
    · rw [young] at expired
      cases expired
    · have first : t.Newest entry.1 := ⟨kept.member, fun point member => isNewest.2 point (kept.fewer point member)⟩
      have index := first.index listed
      omega
  exact ⟨List.mem_filter.mpr ⟨keptNow.member, decide_eq_true other⟩,
    fun point member => keptNow.fewer point (List.mem_filter.mp member).1⟩

/-- A collection of damaged points discards none. -/
theorem collect_keeps_damaged (damaged : ∃ point ∈ before.points, point.intact = false)
    (same : disk.points = before.points) :
    Keeps (fun t => t.points = before.points) (collect policy options) disk := by
  refine collect_keeps (fun _ _ equal held => equal.trans held) (fun t same intact => ?_) same
  obtain ⟨point, member, broken⟩ := damaged
  have fine := intact point (same ▸ member)
  rw [broken] at fine
  cases fine

end Survival

section Expiry

variable {P : Disk → Prop}

theorem step_completes {site : Site} (held : P disk) : (step site).Completes (fun _ => P) disk :=
  .ask fun _ => ⟨(), rfl, held⟩

theorem removeTrash_completes (ofPoints : OfPoints P) (name : String) (held : P disk) :
    (removeTrash name).Completes (fun _ => P) disk := by
  refine .bind ((step_completes held).mono fun _ t held => .bind (.modify ?_))
  exact step_completes (ofPoints t _ rfl held)

theorem removeWork_completes (ofPoints : OfPoints P) (name : String) (held : P disk) :
    (removeWork name).Completes (fun _ => P) disk := by
  refine .bind ((step_completes held).mono fun _ t held => .bind (.modify ?_))
  exact step_completes (ofPoints t _ rfl held)

theorem discard_completes (ofPoints : OfPoints P) {id : String} (after : P (disk.discard id)) :
    (discard id).Completes (fun _ => P) disk := by
  have here : (step (.inspect id)).Completes (fun _ t => P (t.discard id)) disk := step_completes after
  refine .bind (here.mono fun _ t after => .bind (.modify ?_))
  refine .bind ((step_completes after).mono fun _ u held => ?_)
  exact .bind ((step_completes held).mono fun _ v held => removeTrash_completes ofPoints id held)

theorem collectPoint_completes {now : Int} {entry : Point × Nat} (expired : policy.expired now entry.1 = true) :
    (collectPoint policy { now := now } entry).Completes (fun _ t => t.points = (disk.discard entry.1.id).points) disk := by
  have same : OfPoints fun t => t.points = (disk.discard entry.1.id).points := fun _ _ equal held => equal.trans held
  have decides : (pressureAt policy { now := now } entry.2).Completes (fun _ t => t = disk) disk := by
    unfold pressureAt
    split
    · exact .bind (.ask fun used => ⟨used, rfl, rfl⟩)
    · rfl
  rw [collectPoint, if_neg nofun]
  refine .bind (decides.mono fun pressure t unchanged => ?_)
  rw [if_pos (.inl expired), unchanged]
  exact discard_completes same rfl

/-- When every point is expired, a collection that meets no failure discards them all. -/
theorem collect_completes {now : Int} (expired : ∀ point ∈ disk.points, policy.expired now point = true)
    (intact : ∀ point ∈ disk.points, point.intact = true) :
    (collect policy { now := now }).Completes (fun _ t => t.points = []) disk := by
  have same : OfPoints fun t => t.points = disk.points := fun _ _ equal held => equal.trans held
  have started : (step .initialize_).Completes (fun _ t => t.points = disk.points) disk := step_completes rfl
  refine .bind (started.mono fun _ t held => ?_)
  refine .bind (.ask fun _ => ⟨t.trash, rfl, ?_⟩)
  have cleared := Process.wp_each (fun name (_ : name ∈ t.trash) u held => removeTrash_completes same name held) held
  refine .bind (Process.Completes.mono cleared fun _ u held => ?_)
  have settled : (step .temporaryState).Completes (fun _ t => t.points = disk.points) u := step_completes held
  refine .bind (settled.mono fun _ v held => ?_)
  refine .bind (.ask fun _ => ⟨v.staging, rfl, ?_⟩)
  have swept := Process.wp_each (fun name (_ : name ∈ v.staging) u held => removeWork_completes same name held) held
  refine .bind (Process.Completes.mono swept fun _ w held => ?_)
  refine .bind (.ask fun _ => ⟨w.points.mergeSort Point.newer, if_pos ?_, ?_⟩)
  · exact List.all_eq_true.mpr fun point member => intact point (held ▸ member)
  have turn : ∀ entry ∈ (w.points.mergeSort Point.newer).zipIdx.reverse, ∀ x : Disk,
      (∀ point ∈ x.points, point ∈ disk.points) →
      (collectPoint policy { now := now } entry).Completes
        (fun _ y => (∀ point ∈ y.points, point ∈ disk.points) ∧ entry.1 ∉ y.points ∧
          ∀ other : Point × Nat, other.1 ∉ x.points → other.1 ∉ y.points) x := by
    intro entry member x fewer
    obtain ⟨bound, stands⟩ := List.mem_zipIdx' (List.mem_reverse.mp member)
    have known : entry.1 ∈ disk.points := held ▸ List.mem_mergeSort.mp (stands ▸ List.getElem_mem bound)
    refine (collectPoint_completes (expired _ known)).mono fun _ y left => ?_
    rw [left]
    refine ⟨fun point there => fewer point (List.mem_filter.mp there).1, fun there => ?_, fun other absent there => ?_⟩
    · exact of_decide_eq_true (List.mem_filter.mp there).2 rfl
    · exact absent (List.mem_filter.mp there).1
  have emptied := Process.wp_each_done turn fun point member => (held ▸ member : point ∈ disk.points)
  refine Process.Completes.mono emptied fun _ x final => ?_
  obtain ⟨fewer, gone, _⟩ := final
  refine List.eq_nil_iff_forall_not_mem.mpr fun point member => ?_
  have listed : point ∈ w.points.mergeSort Point.newer := List.mem_mergeSort.mpr (held.symm ▸ fewer point member)
  obtain ⟨index, bound, stands⟩ := List.getElem_of_mem listed
  have entered : (point, index) ∈ (w.points.mergeSort Point.newer).zipIdx := by
    rw [List.mem_zipIdx_iff_getElem?]
    exact List.getElem?_eq_some_iff.mpr ⟨bound, stands⟩
  exact gone _ (List.mem_reverse.mpr entered) member

/-- When every point is expired, a run of `create` loses them all before it has a new one. -/
theorem create_loses (expired : ∀ point ∈ disk.points, policy.expired request.now point = true)
    (intact : ∀ point ∈ disk.points, point.intact = true) : ¬ Keeps (Survives disk) (create policy request) disk := by
  intro keeps
  have limited : (create policy request).wp Process.noFailure (fun _ => Survives disk) (fun _ => Survives disk)
    (fun _ => Survives disk) disk := keeps.restrict fun _ _ _ => trivial
  have both := (collect_completes expired intact).also (Process.wp_bind.mp limited)
  obtain ⟨_, t, empty, rest⟩ := both.returns
  obtain ⟨⟨point, member, _⟩, _⟩ := rest.1
  rw [empty] at member
  cases member

end Expiry

/-- A point survives every run of `create`, wherever it fails or stops, just when one of the points is not expired at
its start, or one of them is damaged. -/
theorem create_survives_iff (valid : ∃ point ∈ disk.points, point.intact = true) :
    Keeps (Survives disk) (create policy request) disk ↔
      (∃ point ∈ disk.points, policy.expired request.now point = false) ∨
        ∃ point ∈ disk.points, point.intact = false := by
  constructor
  · intro keeps
    by_contra neither
    rw [not_or] at neither
    obtain ⟨noneYoung, noneDamaged⟩ := neither
    have expired : ∀ point ∈ disk.points, policy.expired request.now point = true := fun point member =>
      Bool.eq_true_of_not_eq_false fun young => noneYoung ⟨point, member, young⟩
    have intact : ∀ point ∈ disk.points, point.intact = true := fun point member =>
      Bool.eq_true_of_not_eq_false fun broken => noneDamaged ⟨point, member, broken⟩
    exact create_loses expired intact keeps
  · intro condition
    by_cases damaged : ∃ point ∈ disk.points, point.intact = false
    · refine create_keeps (fun t same => ?_) (fun options _ t same => collect_keeps_damaged damaged same) rfl
      exact ⟨same ▸ valid, fun newest isNewest => .inl (same ▸ isNewest.1)⟩
    · obtain ⟨point, member, young⟩ := condition.resolve_right damaged
      obtain ⟨newest, isNewest⟩ := disk.exists_newest member
      have youngest : policy.expired request.now newest = false := by
        have ahead := Point.newer_iff.mp (isNewest.2 point member)
        simp only [Policy.expired, decide_eq_false_iff_not] at young ⊢
        omega
      have whole : newest.intact = true := Bool.eq_true_of_not_eq_false fun broken => damaged ⟨newest, isNewest.1, broken⟩
      refine create_keeps (fun t kept => ⟨⟨newest, kept.member, whole⟩, fun other isOther => .inl ?_⟩)
        (fun options same t kept => collect_keeps_newest isNewest (same ▸ youngest) kept) ⟨isNewest.1, fun _ listed => listed⟩
      have left := Point.newer_iff.mp (isNewest.2 other isOther.1)
      have right := Point.newer_iff.mp (isOther.2 newest isNewest.1)
      have names : other.id = newest.id := by
        rcases left with left | ⟨_, left⟩
        · omega
        · rcases right with right | ⟨_, right⟩
          · omega
          · exact String.le_antisymm left right
      rw [disk.ext_id isOther.1 isNewest.1 names]
      exact kept.member

/-- The default policy. -/
def defaultPolicy : Policy where
  maxBytes := 4294967296
  minFreeBytes := 3221225472
  retainCount := 2
  retainHours := 168
  maxEntries := 100000
  positive := by decide
  bounded := by decide

/-- A store with one intact point, made at this time. -/
def singlePoint (createdAt : Int) : Disk where
  points := [{ id := "rp-1700000000000-0123456789ab", createdAt, bytes := 1, intact := true }]
  distinct := List.nodup_singleton _
  trash := []
  staging := []

example : recoveryPolicy {} = some defaultPolicy := rfl

/-- An hour after it was made, the only point survives. -/
theorem create_survives_young :
    Keeps (Survives (singlePoint 1700000000000))
      (create defaultPolicy { now := 1700003600000, id := "rp-1700003600000-ba9876543210", work := "work-a1b2c3" })
      (singlePoint 1700000000000) :=
  (create_survives_iff ⟨_, List.mem_cons_self, rfl⟩).mpr (.inl ⟨_, List.mem_cons_self, by decide⟩)

/-- Eight days after it was made, the only point is discarded before anything else is done. -/
theorem create_survives_expired :
    ¬ Keeps (Survives (singlePoint 1700000000000))
      (create defaultPolicy { now := 1700691200000, id := "rp-1700691200000-ba9876543210", work := "work-a1b2c3" })
      (singlePoint 1700000000000) :=
  create_loses (by decide) (by decide)

end LatexRenderer.RecoveryStore
