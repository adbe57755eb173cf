import LatexRenderer.Machine.Keyset
import LatexRenderer.Model.ProjectPages
import LatexRenderer.Retention.Sources

/-! # Walking over the project list

The list is ordered by the instant of the last update, which a rename or a new revision moves to the front. A client meets
every project that stays in the list once, as long as no update carries a project across its cursor.
-/

namespace LatexRenderer

open Machine

variable {limits : Limits} {store next : SourceStore} {s t : ProjectListing} {event : ListingEvent} {limit : ℕ}
  {action : SourceStoreAction} {cursor : ProjectCursor}

section Changes

/-- The project that an action updates and the instant it writes. -/
def SourceStoreAction.updates? : SourceStoreAction → Option (String × Timestamp)
  | .renameProject id _ _ timestamp => some (id, timestamp)
  | .attachRevision input => some (input.projectId, input.timestamp)
  | _ => none

/-- What an action may make of a row of `projects`. -/
structure ProjectRow.Becomes (action : SourceStoreAction) (row new : ProjectRow) : Prop where
  id : new.id = row.id
  owner : new.ownerUserId = row.ownerUserId
  deleted : new.deletedAt = none → row.deletedAt = none
  updated : new.deletedAt = none → new.updatedAt = row.updatedAt ∨ action.updates? = some (row.id, new.updatedAt)

theorem ProjectRow.Becomes.refl (row : ProjectRow) : row.Becomes action row :=
  ⟨rfl, rfl, fun undeleted => undeleted, fun _ => .inl rfl⟩

theorem becomes_refl (rows : List ProjectRow) : List.Forall₂ (ProjectRow.Becomes action) rows rows :=
  List.forall₂_same.mpr fun row _ => .refl row

theorem becomes_update {projectId : String} {change : ProjectRow → Option ProjectRow} {rows after : List ProjectRow}
    (updated : update? (·.id == projectId) change rows = some after)
    (becomes : ∀ row new, row.id = projectId → change row = some new → row.Becomes action new) :
    List.Forall₂ (ProjectRow.Becomes action) rows after := by
  obtain ⟨before, row, rest, new, rfl, found, changed, rfl⟩ := update?_eq_some updated
  have keyed : row.id = projectId := beq_iff_eq.mp (List.find?_some found :)
  exact List.rel_append (becomes_refl before) (.cons (becomes row new keyed changed) (becomes_refl rest))

/-- An action adds a project with a new id, or changes the projects in place. -/
theorem run_projects (ran : action.run limits store = some next) :
    (∃ project, (∀ row ∈ store.projects, row.id ≠ project.id) ∧ next.projects = store.projects ++ [project]) ∨
      List.Forall₂ (ProjectRow.Becomes action) store.projects next.projects := by
  cases action with
  | transact action =>
    obtain ⟨-, changed⟩ := (Option.ite_none_left_eq_some ..).mp ran
    obtain ⟨db, -, rfl⟩ := Option.map_eq_some_iff.mp changed
    exact .inr (becomes_refl _)
  | createProject id ownerUserId displayName timestamp =>
    obtain ⟨unknown, changed⟩ := (Option.ite_none_left_eq_some ..).mp ran
    obtain ⟨tables, created, rfl⟩ := Option.map_eq_some_iff.mp changed
    obtain ⟨project, fresh, rfl⟩ := ProjectTables.create_eq created
    refine .inl ⟨project, ?_, rfl⟩
    rw [fresh]
    simpa using unknown
  | renameProject projectId ownerUserId displayName timestamp =>
    obtain ⟨tables, renamed, rfl⟩ := Option.map_eq_some_iff.mp ran
    obtain ⟨projects, updated, rfl⟩ := ProjectTables.changeProject_eq renamed
    refine .inr (becomes_update updated fun row new keyed changed => ?_)
    obtain ⟨-, same⟩ := (Option.ite_none_right_eq_some ..).mp changed
    cases same
    exact ⟨rfl, rfl, fun undeleted => undeleted, fun _ => .inr (by rw [keyed]; rfl)⟩
  | deleteProject projectId ownerUserId timestamp =>
    obtain ⟨tables, deleted, rfl⟩ := Option.map_eq_some_iff.mp ran
    obtain ⟨projects, updated, rfl⟩ := ProjectTables.changeProject_eq deleted
    refine .inr (becomes_update updated fun row new _ changed => ?_)
    obtain ⟨-, same⟩ := (Option.ite_none_right_eq_some ..).mp changed
    cases same
    exact ⟨rfl, rfl, fun never => (by cases never), fun never => (by cases never)⟩
  | attachRevision input =>
    obtain ⟨-, changed⟩ := (Option.ite_none_left_eq_some ..).mp ran
    obtain ⟨tables, attached, rfl⟩ := Option.map_eq_some_iff.mp changed
    obtain ⟨project, source, owned, -, touched⟩ := ProjectTables.attachRevision_cases attached
    have named : project.id = input.projectId := by
      have found := List.find?_some owned
      simp only [Bool.and_eq_true, beq_iff_eq] at found
      exact found.1
    have projects : tables.projects =
        store.projects.map fun row => if row.id = project.id then row.touch input.timestamp else row := by
      rcases touched with rfl | rfl
      · rfl
      · rfl
    refine .inr ?_
    show List.Forall₂ _ store.projects tables.projects
    rw [projects, List.forall₂_map_right_iff]
    refine List.forall₂_same.mpr fun row _ => ?_
    split
    · next same =>
      exact ⟨rfl, rfl, fun undeleted => undeleted, fun _ => .inr (by rw [same, named]; rfl)⟩
    · exact .refl row
  | openSource claim =>
    obtain ⟨-, same⟩ := (Option.ite_none_right_eq_some ..).mp ran
    cases same
    exact .inr (becomes_refl _)

theorem ids_of_becomes {rows after : List ProjectRow} (becomes : List.Forall₂ (ProjectRow.Becomes action) rows after) :
    after.map (·.id) = rows.map (·.id) := by
  induction becomes with
  | nil => rfl
  | cons first _ ih => rw [List.map_cons, List.map_cons, first.id, ih]

theorem projectIds_nodup (ran : action.run limits store = some next) (distinct : (store.projects.map (·.id)).Nodup) :
    (next.projects.map (·.id)).Nodup := by
  rcases run_projects ran with ⟨project, fresh, same⟩ | becomes
  · rw [same]
    exact nodup_map_append distinct fresh
  · rw [ids_of_becomes becomes]
    exact distinct

end Changes

section Pages

variable {ownerUserId : String} {tables : ProjectTables}

/-- The sort values that a cursor stands for. -/
def ProjectCursor.values (cursor : ProjectCursor) : ℕ ×ₗ String := toLex (cursor.updatedAt, cursor.id)

theorem follows_eq (cursor : ProjectCursor) (row : ProjectRow) :
    row.follows cursor = decide (row.sortValues < cursor.values) := by
  rw [Bool.eq_iff_iff, decide_eq_true_eq, ProjectRow.sortValues, ProjectCursor.values, Prod.Lex.toLex_lt_toLex]
  simp [ProjectRow.follows]

/-- The projects of an owner. -/
def ownedBy (ownerUserId : String) (projects : List ProjectRow) : List ProjectRow :=
  projects.filter fun row => decide (row.owned ownerUserId)

theorem pageRows_eq (last : Option ProjectCursor) : tables.pageRows ownerUserId last limit =
    ordered ProjectRow.sortValues (last.map ProjectCursor.values) (ownedBy ownerUserId tables.projects) (limit + 1) := by
  rw [ProjectTables.pageRows, ordered, ownedBy, List.filter_filter]
  congr 3
  funext row
  cases last with
  | none => simp [ahead]
  | some cursor =>
    rw [Option.all_some, follows_eq, Bool.and_comm]
    rfl

theorem sortValues_nodup (distinct : (tables.projects.map (·.id)).Nodup) :
    ((ownedBy ownerUserId tables.projects).map ProjectRow.sortValues).Nodup := by
  have ids : ((ownedBy ownerUserId tables.projects).map (·.id)).Nodup := distinct.sublist (List.filter_sublist.map _)
  refine List.Nodup.of_map (fun values => (ofLex values).2) ?_
  rw [List.map_map]
  exact ids

/-- The cursor made of sort values. -/
def ProjectCursor.ofValues (values : ℕ ×ₗ String) : ProjectCursor := ⟨(ofLex values).1, (ofLex values).2⟩

/-- The query of a page is a page behind the sort values. -/
theorem listOwnedPage_eq (last : Option ProjectCursor) : tables.listOwnedPage ownerUserId last limit =
    ((keysetPage ProjectRow.sortValues limit (last.map ProjectCursor.values) (ownedBy ownerUserId tables.projects)).1.map
        tables.summary,
      (keysetPage ProjectRow.sortValues limit (last.map ProjectCursor.values) (ownedBy ownerUserId tables.projects)).2.map
        ProjectCursor.ofValues) := by
  unfold ProjectTables.listOwnedPage keysetPage
  rw [pageRows_eq]
  dsimp only
  split
  · rw [Option.map_map]
    rfl
  · rfl

end Pages

section Walk

/-- An update between two requests leaves a project that has been in the list from the first request on its side of the
cursor. -/
def ProjectListing.KeepsSide (s : ProjectListing) : ListingEvent → Prop
  | .change action => ∀ cursor id timestamp, s.position = .after cursor → action.updates? = some (id, timestamp) →
      id ∈ s.present → ∀ row ∈ s.store.projects, row.id = id →
        ({ row with updatedAt := timestamp } : ProjectRow).follows cursor = row.follows cursor
  | .request _ => True

/-- What has been returned, by how far the client has come. -/
structure ListingSound (s : ProjectListing) : Prop where
  distinct : (s.store.projects.map (·.id)).Nodup
  present : ∀ id ∈ s.present, ∃ row ∈ s.store.projects, row.id = id ∧ row.owned s.ownerUserId
  start : s.position = .start → s.returned = []
  after : ∀ cursor, s.position = .after cursor → ∀ row ∈ s.store.projects, row.id ∈ s.present →
    s.returned.count row.id = if row.follows cursor = true then 0 else 1
  finished : s.position = .finished → ∀ id ∈ s.present, s.returned.count id = 1

theorem exists_of_becomes {rows after : List ProjectRow} {new : ProjectRow}
    (becomes : List.Forall₂ (ProjectRow.Becomes action) rows after) (member : new ∈ after) :
    ∃ row ∈ rows, row.Becomes action new := by
  induction becomes with
  | nil => cases member
  | cons first _ ih =>
    rcases List.mem_cons.mp member with rfl | later
    · exact ⟨_, List.mem_cons_self, first⟩
    · obtain ⟨row, there, same⟩ := ih later
      exact ⟨row, List.mem_cons_of_mem _ there, same⟩

/-- A transaction that carries no listed project across the cursor. -/
theorem ListingSound.change (sound : ListingSound s) (keeps : s.KeepsSide (.change action))
    (ran : action.run limits s.store = some next) :
    ListingSound { s with
      store := next
      present := s.present.filter { s with store := next }.has } := by
  have distinct := projectIds_nodup ran sound.distinct
  have has : ∀ id, ({ s with store := next } : ProjectListing).has id = true →
      ∃ row ∈ next.projects, row.id = id ∧ row.owned s.ownerUserId := by
    intro id has
    obtain ⟨row, there, holds⟩ := List.any_eq_true.mp has
    rw [Bool.and_eq_true, beq_iff_eq, decide_eq_true_eq] at holds
    exact ⟨row, there, holds⟩
  constructor
  · exact distinct
  · intro id member
    exact has id (List.mem_filter.mp member).2
  · exact sound.start
  · intro cursor position new there listed
    obtain ⟨before, still⟩ := List.mem_filter.mp listed
    obtain ⟨owned, within, same, own⟩ := has _ still
    obtain rfl := List.inj_on_of_nodup_map distinct within there same
    rcases run_projects ran with ⟨project, fresh, grown⟩ | becomes
    · rw [grown] at there
      rcases List.mem_append.mp there with older | added
      · exact sound.after cursor position owned older before
      · obtain ⟨row, old, named, -⟩ := sound.present _ before
        rw [List.mem_singleton.mp added] at named
        exact absurd named (fresh row old)
    · obtain ⟨row, old, becomes⟩ := exists_of_becomes becomes there
      have count := sound.after cursor position row old (becomes.id ▸ before)
      have side : owned.follows cursor = row.follows cursor := by
        rcases becomes.updated own.2 with unchanged | updates
        · unfold ProjectRow.follows
          rw [unchanged, becomes.id]
        · rw [← keeps cursor row.id owned.updatedAt position updates (becomes.id ▸ before) row old rfl]
          unfold ProjectRow.follows
          rw [becomes.id]
      rw [side, becomes.id]
      exact count
  · intro position id member
    exact sound.finished position id (List.mem_filter.mp member).1

theorem answer_sound {last : Option ProjectCursor} (positive : 0 < limit) (distinct : (s.store.projects.map (·.id)).Nodup)
    (present : ∀ id ∈ s.present, ∃ row ∈ s.store.projects, row.id = id ∧ row.owned s.ownerUserId)
    (counted : ∀ row ∈ s.store.projects, row.id ∈ s.present → s.returned.count row.id =
      if ahead ProjectRow.sortValues (last.map ProjectCursor.values) row = true then 0 else 1) :
    ListingSound (s.answer last limit) := by
  have page : PageOf ProjectRow.sortValues (last.map ProjectCursor.values) (ownedBy s.ownerUserId s.store.projects) _ _ :=
    keysetPage_spec (sortValues_nodup distinct) positive
  have answer : s.answer last limit = { s with
      position := ((keysetPage ProjectRow.sortValues limit (last.map ProjectCursor.values)
        (ownedBy s.ownerUserId s.store.projects)).2.map ProjectCursor.ofValues).elim .finished .after
      returned := s.returned ++ (keysetPage ProjectRow.sortValues limit (last.map ProjectCursor.values)
        (ownedBy s.ownerUserId s.store.projects)).1.map (·.id) } := by
    rw [ProjectListing.answer, listOwnedPage_eq, List.map_map]
    rfl
  rw [answer]
  generalize (keysetPage ProjectRow.sortValues limit (last.map ProjectCursor.values)
    (ownedBy s.ownerUserId s.store.projects)).1 = items at page
  generalize (keysetPage ProjectRow.sortValues limit (last.map ProjectCursor.values)
    (ownedBy s.ownerUserId s.store.projects)).2 = next at page
  have ids : (items.map (·.id)).Nodup := by
    refine List.Nodup.map_on (fun first left second right same => ?_) (List.Nodup.of_map _ page.nodup)
    exact List.inj_on_of_nodup_map distinct (List.mem_of_mem_filter (page.ahead first left).1)
      (List.mem_of_mem_filter (page.ahead second right).1) same
  -- every listed project is one of the owner's rows, and a page has it once or not at all
  have owns : ∀ row ∈ s.store.projects, row.id ∈ s.present → row ∈ ownedBy s.ownerUserId s.store.projects := by
    intro row member listed
    obtain ⟨own, there, same, owned⟩ := present _ listed
    obtain rfl := List.inj_on_of_nodup_map distinct there member same
    exact List.mem_filter.mpr ⟨there, decide_eq_true owned⟩
  have inside : ∀ row ∈ items, (items.map (·.id)).count row.id = 1 :=
    fun row within => List.count_eq_one_of_mem ids (List.mem_map_of_mem within)
  have outside : ∀ row ∈ s.store.projects, row ∉ items → (items.map (·.id)).count row.id = 0 := by
    refine fun row member without => List.count_eq_zero.mpr fun there => without ?_
    obtain ⟨other, within, same⟩ := List.mem_map.mp there
    have stored := List.mem_of_mem_filter (page.ahead other within).1
    exact List.inj_on_of_nodup_map distinct stored member same ▸ within
  cases shape : next with
  | none =>
    refine ⟨distinct, present, fun never => (by cases never), fun _ never => (by cases never), fun _ id listed => ?_⟩
    obtain ⟨row, member, rfl, -⟩ := present id listed
    show (s.returned ++ items.map (·.id)).count row.id = 1
    rw [List.count_append, counted row member listed]
    by_cases coming : ahead ProjectRow.sortValues (last.map ProjectCursor.values) row = true
    · rw [if_pos coming, inside row (page.last shape row (owns row member listed) coming)]
    · rw [if_neg coming, outside row member fun within => coming (page.ahead row within).2]
  | some values =>
    refine ⟨distinct, present, fun never => (by cases never), fun cursor position row member listed => ?_, fun never => (by cases never)⟩
    cases position
    show (s.returned ++ items.map (·.id)).count row.id = _
    rw [List.count_append, counted row member listed, follows_eq]
    have behind : decide (row.sortValues < (ProjectCursor.ofValues values).values) =
        ahead ProjectRow.sortValues (some values) row := rfl
    rw [behind]
    by_cases coming : ahead ProjectRow.sortValues (last.map ProjectCursor.values) row = true
    · have more := page.more values shape row (owns row member listed) coming
      rw [if_pos coming]
      by_cases within : row ∈ items
      · have reached : ¬ahead ProjectRow.sortValues (some values) row = true :=
          fun below => absurd (of_decide_eq_true below) (not_lt.mpr (more.mp within))
        rw [inside row within, if_neg reached]
      · have below : ahead ProjectRow.sortValues (some values) row = true :=
          decide_eq_true (not_le.mp fun least => within (more.mpr least))
        rw [outside row member within, if_pos below]
    · have past : ¬ahead ProjectRow.sortValues (some values) row = true :=
        fun below => coming (page.descends values shape row below)
      rw [if_neg coming, outside row member (fun within => coming (page.ahead row within).2), if_neg past]

theorem projectIds_reachable (reached : Reachable (sourceStoreMachine limits) store) : (store.projects.map (·.id)).Nodup := by
  refine reached.induction (P := fun store => (store.projects.map (·.id)).Nodup) ?_ ?_
  · intro store start
    rw [start.2.2.2.1]
    exact List.nodup_nil
  · exact fun _ taken distinct => projectIds_nodup taken distinct

theorem listingSound_reachable (reached : Reachable ((listingMachine limits).restrict ProjectListing.KeepsSide) s) :
    ListingSound s := by
  refine reached.induction (P := ListingSound) ?_ ?_
  · rintro s ⟨store, position, returned, present⟩
    refine ⟨projectIds_reachable store, fun id member => ?_, fun _ => returned, fun _ never => ?_, fun never => ?_⟩
    · rw [present] at member
      cases member
    · rw [position] at never
      cases never
    · rw [position] at never
      cases never
  · rintro s event t - ⟨taken, keeps⟩ sound
    cases event with
    | change action =>
      obtain ⟨store, ran, rfl⟩ := Option.map_eq_some_iff.mp taken
      exact sound.change keeps ran
    | request limit =>
      obtain ⟨some, answered⟩ := (Option.ite_none_left_eq_some ..).mp taken
      have positive : 0 < limit := Nat.pos_of_ne_zero some
      cases position : s.position with
      | start =>
        rw [position] at answered
        cases answered
        refine answer_sound positive sound.distinct (fun id member => ?_) fun row _ _ => ?_
        · obtain ⟨row, there, rfl⟩ := List.mem_map.mp member
          obtain ⟨stored, own⟩ := List.mem_filter.mp there
          exact ⟨row, stored, rfl, of_decide_eq_true own⟩
        · show s.returned.count row.id = 0
          rw [sound.start position]
          rfl
      | after cursor =>
        rw [position] at answered
        cases answered
        refine answer_sound positive sound.distinct sound.present fun row there listed => ?_
        rw [sound.after cursor position row there listed, follows_eq]
        rfl
      | finished =>
        rw [position] at answered
        cases answered

/-- In every run in which no update carries a listed project across the cursor of the client, a project that exists and
matches from the first request on is returned at most once, and exactly once when the client has come to the end. -/
theorem projectListing_once (reached : Reachable ((listingMachine limits).restrict ProjectListing.KeepsSide) s) :
    ∀ id ∈ s.present, s.returned.count id ≤ 1 ∧ (s.position = .finished → s.returned.count id = 1) := by
  have sound : ListingSound s := listingSound_reachable reached
  intro id member
  cases position : s.position with
  | start =>
    rw [sound.start position]
    exact ⟨Nat.zero_le 1, fun never => (by cases never)⟩
  | after cursor =>
    obtain ⟨row, there, rfl, -⟩ := sound.present id member
    have count := sound.after cursor position row there member
    refine ⟨?_, fun never => (by cases never)⟩
    rw [count]
    split
    · exact Nat.zero_le 1
    · exact Nat.le_refl 1
  | finished =>
    have count := sound.finished position id member
    exact ⟨Nat.le_of_eq count, fun _ => count⟩

/-- Three projects of a user, and the first page of his list with a single project. -/
def firstPage : List ListingEvent :=
  [.change (.createProject "project_1" "user_1" "Thesis" 1), .change (.createProject "project_2" "user_1" "Paper" 2),
    .change (.createProject "project_3" "user_1" "Letter" 3), .request 1]

/-- A walk over three pages while a fourth project appears. -/
theorem projectListing_once_grown : ∃ s : ProjectListing, s.returned = ["project_3", "project_2", "project_1"] ∧
    s.present = ["project_1", "project_2", "project_3"] ∧ s.position = .finished ∧
    ∀ id ∈ s.present, s.returned.count id ≤ 1 ∧ (s.position = .finished → s.returned.count id = 1) := by
  have replayed : (replay? (ProjectListing.step exampleLimits) ⟨{}, "user_1", .start, [], []⟩
      (firstPage ++ [.change (.createProject "project_4" "user_1" "Draft" 4), .request 1, .request 5])).any (fun s =>
        decide (s.returned = ["project_3", "project_2", "project_1"]) &&
          decide (s.present = ["project_1", "project_2", "project_3"]) && decide (s.position = .finished)) = true := by
    decide
  obtain ⟨s, run, check⟩ := exists_run_of_replay? replayed
  simp only [Bool.and_eq_true, decide_eq_true_eq] at check
  have quiet := run.restrict ProjectListing.KeepsSide fun event member before => by
    simp only [firstPage, List.cons_append, List.nil_append, List.mem_cons, List.not_mem_nil, or_false] at member
    rcases member with rfl | rfl | rfl | rfl | rfl | rfl | rfl <;>
      first | trivial | (intro cursor id timestamp _ never; cases never)
  have empty : Reachable (sourceStoreMachine exampleLimits) {} := .init ⟨rfl, rfl, rfl, rfl, rfl, rfl, rfl⟩
  exact ⟨s, check.1.1, check.1.2, check.2, projectListing_once ⟨_, _, ⟨empty, rfl, rfl, rfl⟩, quiet⟩⟩

/-- A project that is renamed between the first and the second page is never returned. -/
theorem renamed_project_skipped : ∃ s, Reachable (listingMachine exampleLimits) s ∧ s.position = .finished ∧
    "project_1" ∈ s.present ∧ s.returned = ["project_3", "project_2"] := by
  have replayed : (replay? (ProjectListing.step exampleLimits) ⟨{}, "user_1", .start, [], []⟩
      (firstPage ++ [.change (.renameProject "project_1" "user_1" "Dissertation" 4), .request 1])).any (fun s =>
        decide (s.position = .finished) && decide ("project_1" ∈ s.present) &&
          decide (s.returned = ["project_3", "project_2"])) = true := by decide
  obtain ⟨s, run, check⟩ := exists_run_of_replay? replayed
  simp only [Bool.and_eq_true, decide_eq_true_eq] at check
  have empty : Reachable (sourceStoreMachine exampleLimits) {} := .init ⟨rfl, rfl, rfl, rfl, rfl, rfl, rfl⟩
  exact ⟨s, ⟨_, _, ⟨empty, rfl, rfl, rfl⟩, run⟩, check.1.1, check.1.2, check.2⟩

end Walk

end LatexRenderer
