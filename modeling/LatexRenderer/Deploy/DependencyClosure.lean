import Mathlib.Order.Bounds.Basic
import LatexRenderer.Model.Deploy.TexDatabase

/-! # What a mirror has to hold

The packages that the roots need are the least set with their depend lines, where `.ARCH` means the architecture
of the package that has the line, or every enabled one. The search marks packages by name only and passes on the
architecture of the way that met them first, so its result is that set where each line comes to the same on
every way.
-/

namespace LatexRenderer

open Machine

/-- What a database, the roots and the architectures say, without any order. -/
structure DependencyGraph where
  roots : Text → Prop
  known : Text → Prop
  lines : Text → Text → Prop
  enabled : Architecture → Prop
  named : ∀ {name}, known name → packageName name = true

theorem TexDatabase.get?_named {database : TexDatabase} {name : Text} {package : TexPackage}
    (found : database.get? name = some package) : package ∈ database.packages ∧ package.name = name :=
  ⟨List.mem_of_find?_eq_some found, of_decide_eq_true (by simpa using List.find?_some found)⟩

theorem TexDatabase.packageName_of_get? {database : TexDatabase} {name : Text} {package : TexPackage}
    (found : database.get? name = some package) : packageName name = true := by
  obtain ⟨member, rfl⟩ := TexDatabase.get?_named found
  exact database.named package member

/-- The graph that `dependency_closure` is given. -/
def dependencyGraph (database : TexDatabase) (roots : List Text) (architectures : List Architecture) :
    DependencyGraph where
  roots line := line ∈ roots
  known name := ∃ package, database.get? name = some package
  lines name line := ∃ package, database.get? name = some package ∧ line ∈ package.depends
  enabled arch := arch ∈ architectures
  named known := known.elim fun _ found => TexDatabase.packageName_of_get? found

namespace DependencyGraph

variable {graph : DependencyGraph}

/-- The packages that a line names, when `.ARCH` stands for these architectures. -/
inductive StandsFor (graph : DependencyGraph) (allowed : Architecture → Prop) : Text → Text → Prop
  | package {line name : Text} (read : dependLine line = .package name) (known : graph.known name) :
      StandsFor graph allowed line name
  | architecture {line base : Text} {arch : Architecture} (read : dependLine line = .architectures base)
      (asked : allowed arch) (known : graph.known (candidate base arch)) :
      StandsFor graph allowed line (candidate base arch)

theorem StandsFor.mono {allowed more : Architecture → Prop} {line name : Text}
    (weaker : ∀ arch, allowed arch → more arch) (named : graph.StandsFor allowed line name) :
    graph.StandsFor more line name := by
  cases named with
  | package read known => exact .package read known
  | architecture read asked known => exact .architecture read (weaker _ asked) known

/-- The name is of a package with programs for the architecture. -/
def Specific (name : Text) (arch : Architecture) : Prop := ('.' :: arch.arches) <:+ name

/-- What `.ARCH` means in a line of the package. -/
def owed (graph : DependencyGraph) (name : Text) (arch : Architecture) : Prop :=
  Specific name arch ∨ (∀ other, ¬ Specific name other) ∧ graph.enabled arch

/-- The set has the roots and what the depend lines of its packages name. -/
structure ClosedUnderDepends (graph : DependencyGraph) (names : Set Text) : Prop where
  roots : ∀ {line name}, graph.roots line → graph.StandsFor graph.enabled line name → name ∈ names
  depends : ∀ {package line name}, package ∈ names → graph.lines package line →
    graph.StandsFor (graph.owed package) line name → name ∈ names

/-- A package that the roots need. -/
inductive Needed (graph : DependencyGraph) : Text → Prop
  | root {line name : Text} (root : graph.roots line) (named : graph.StandsFor graph.enabled line name) :
      Needed graph name
  | depend {package line name : Text} (needed : Needed graph package) (listed : graph.lines package line)
      (named : graph.StandsFor (graph.owed package) line name) : Needed graph name

/-- The packages that the roots need are the least closed set. -/
theorem needed_isLeast : IsLeast {names | graph.ClosedUnderDepends names} {name | graph.Needed name} := by
  constructor
  · exact ⟨fun root named => .root root named, fun needed listed named => .depend needed listed named⟩
  · intro names closed name needed
    induction needed with
    | root root named => exact closed.roots root named
    | depend _ listed named ih => exact closed.depends ih listed named

/-- The architectures that a way with this inheritance expands `.ARCH` to. -/
def expands (graph : DependencyGraph) : Option Architecture → Architecture → Prop
  | some inherited, arch => arch = inherited
  | none, arch => graph.enabled arch

/-- A way from the roots to a name, through packages that are all different. -/
inductive Way (graph : DependencyGraph) : List Text → Text → Option Architecture → Prop
  | root {line : Text} (root : graph.roots line) : Way graph [] line none
  | architecture {passed : List Text} {line base : Text} {inherited : Option Architecture} {arch : Architecture}
      (way : Way graph passed line inherited) (read : dependLine line = .architectures base)
      (expanded : graph.expands inherited arch) (known : graph.known (candidate base arch)) :
      Way graph passed (candidate base arch) (some arch)
  | depend {passed : List Text} {line package next : Text} {inherited : Option Architecture}
      (way : Way graph passed line inherited) (read : dependLine line = .package package)
      (known : graph.known package) (fresh : package ∉ passed) (listed : graph.lines package next) :
      Way graph (package :: passed) next inherited

/-- The package can be met with this inheritance. -/
def Met (graph : DependencyGraph) (package : Text) (inherited : Option Architecture) : Prop :=
  ∃ passed line, graph.Way passed line inherited ∧ dependLine line = .package package ∧ graph.known package ∧
    package ∉ passed

/-- A package that the roots need through lines that every way expands alike. -/
inductive Steady (graph : DependencyGraph) : Text → Prop
  | root {line name : Text} (root : graph.roots line) (named : graph.StandsFor graph.enabled line name) :
      Steady graph name
  | depend {package line name : Text} (steady : Steady graph package) (listed : graph.lines package line)
      (named : graph.StandsFor (fun arch => ∀ inherited, graph.Met package inherited → graph.expands inherited arch)
        line name) : Steady graph name

/-- Every package that is needed is needed through lines that every way expands alike, and what can be met is
needed. -/
structure OrderFree (graph : DependencyGraph) : Prop where
  steady : ∀ name, graph.Needed name → graph.Steady name
  needed : ∀ name inherited, graph.Met name inherited → graph.Needed name

end DependencyGraph

open DependencyGraph

section Reading

theorem packageName_char {name : Text} (named : packageName name = true) {c : Char} (member : c ∈ name) :
    packageChar c = true := by
  cases name with
  | nil => cases member
  | cons first rest =>
    rw [packageName, Bool.and_eq_true] at named
    rcases List.mem_cons.mp member with rfl | later
    · simp [packageChar, named.1]
    · exact List.all_eq_true.mp named.2 c later

theorem beforeVersion?_none {line : Text} (absent : '>' ∉ line) : beforeVersion? line = none := by
  induction line with
  | nil => rfl
  | cons first rest ih =>
    have other : first ≠ '>' := fun same => absent (same ▸ List.mem_cons_self)
    have shorter : beforeVersion? rest = none := ih fun member => absent (List.mem_cons_of_mem _ member)
    rw [beforeVersion?]
    · rw [shorter]
      rfl
    · intro _ same
      exact absurd same other

theorem candidate_getLast? (base : Text) (arch : Architecture) : (candidate base arch).getLast? = some 'x' := by
  have last : ('.' :: arch.arches).getLast? = some 'x' := by cases arch <;> decide
  rw [candidate, List.getLast?_append, last]
  rfl

theorem suffix_getLast? {suffix line : Text} {last : Char} (ends : suffix.isSuffixOf line = true)
    (here : suffix.getLast? = some last) : line.getLast? = some last := by
  obtain ⟨before, rfl⟩ := List.isSuffixOf_iff_suffix.mp ends
  rw [List.getLast?_append, here]
  rfl

/-- A package for an architecture is named by its own name. -/
theorem dependLine_candidate {base : Text} {arch : Architecture}
    (named : packageName (candidate base arch) = true) :
    dependLine (candidate base arch) = .package (candidate base arch) := by
  have notArch : ".ARCH".toList.isSuffixOf (candidate base arch) = false := by
    by_contra ends
    have last := suffix_getLast? (Bool.eq_true_of_not_eq_false ends) (by decide : ".ARCH".toList.getLast? = some 'H')
    rw [candidate_getLast?] at last
    exact absurd last (by decide)
  have notWindows : ".windows".toList.isSuffixOf (candidate base arch) = false := by
    by_contra ends
    have last := suffix_getLast? (Bool.eq_true_of_not_eq_false ends)
      (by decide : ".windows".toList.getLast? = some 's')
    rw [candidate_getLast?] at last
    exact absurd last (by decide)
  have notColon : "setting_available_architectures:".toList.isPrefixOf (candidate base arch) = false := by
    by_contra starts
    have member := (List.isPrefixOf_iff_prefix.mp (Bool.eq_true_of_not_eq_false starts)).subset
      (by decide : ':' ∈ "setting_available_architectures:".toList)
    exact absurd (packageName_char named member) (by decide)
  have notSlash : "setting_available_architectures/".toList.isPrefixOf (candidate base arch) = false := by
    by_contra starts
    have member := (List.isPrefixOf_iff_prefix.mp (Bool.eq_true_of_not_eq_false starts)).subset
      (by decide : '/' ∈ "setting_available_architectures/".toList)
    exact absurd (packageName_char named member) (by decide)
  have noVersion : beforeVersion? (candidate base arch) = none :=
    beforeVersion?_none fun member => absurd (packageName_char named member) (by decide)
  simp only [dependLine, notArch, notWindows, notColon, notSlash, noVersion, Bool.false_eq_true, if_false, Bool.or_false]

end Reading

section Search

variable {database : TexDatabase} {roots : List Text} {architectures : List Architecture}

theorem mem_expansion {inherited : Option Architecture} {arch : Architecture} :
    arch ∈ expansion architectures inherited ↔
      (dependencyGraph database roots architectures).expands inherited arch := by
  cases inherited with
  | none => exact Iff.rfl
  | some own => exact List.mem_singleton

theorem mem_candidates {base : Text} {inherited : Option Architecture} {next : QueuedName} :
    next ∈ candidates database architectures base inherited ↔ ∃ arch ∈ expansion architectures inherited,
      (∃ package, database.get? (candidate base arch) = some package) ∧ next = (candidate base arch, some arch) := by
  simp only [candidates, List.mem_reverse, List.mem_map, List.mem_filter, Option.isSome_iff_exists, and_assoc]
  constructor
  · rintro ⟨arch, member, known, rfl⟩
    exact ⟨arch, member, known, rfl⟩
  · rintro ⟨arch, member, known, rfl⟩
    exact ⟨arch, member, known, rfl⟩

theorem visitDependency_package {item : QueuedName} {name : Text} {package : TexPackage}
    (read : dependLine item.1 = .package name) (found : database.get? name = some package) :
    visitDependency database architectures item =
      .mark name (package.depends.map fun line => (line, item.2)).reverse := by
  simp only [visitDependency, read, found]

theorem visitDependency_architectures {item : QueuedName} {base : Text}
    (read : dependLine item.1 = .architectures base) :
    visitDependency database architectures item = .push (candidates database architectures base item.2) := by
  simp only [visitDependency, read]

/-- Only a line that names an existing package marks it. -/
theorem visitDependency_mark {item : QueuedName} {name : Text} {items : List QueuedName}
    (visited : visitDependency database architectures item = .mark name items) :
    ∃ package, dependLine item.1 = .package name ∧ database.get? name = some package ∧
      items = (package.depends.map fun line => (line, item.2)).reverse := by
  unfold visitDependency at visited
  split at visited
  · cases visited
  · cases visited
  · next read =>
    split at visited
    · next package found =>
      cases visited
      exact ⟨package, read, found, rfl⟩
    · split at visited <;> cases visited

theorem visitDependency_push {item : QueuedName} {items : List QueuedName}
    (visited : visitDependency database architectures item = .push items) :
    ∃ base, dependLine item.1 = .architectures base ∧ items = candidates database architectures base item.2 := by
  unfold visitDependency at visited
  split at visited
  · next base read =>
    cases visited
    exact ⟨base, read, rfl⟩
  · cases visited
  · split at visited
    · cases visited
    · split at visited <;> cases visited

/-- A queued name stands at the end of a way through marked packages. -/
def Queued (database : TexDatabase) (roots : List Text) (architectures : List Architecture) (seen : List Text)
    (item : QueuedName) : Prop :=
  ∃ passed, (dependencyGraph database roots architectures).Way passed item.1 item.2 ∧ ∀ name ∈ passed, name ∈ seen

theorem closed_queued :
    Closed (visitDependency database architectures) (Queued database roots architectures) where
  later := by
    rintro seen key item ⟨passed, way, marked⟩
    exact ⟨passed, way, fun name member => List.mem_cons_of_mem _ (marked name member)⟩
  push := by
    rintro seen item items ⟨passed, way, marked⟩ visited next member
    obtain ⟨base, read, rfl⟩ := visitDependency_push visited
    obtain ⟨arch, expanded, known, rfl⟩ := mem_candidates.mp member
    exact ⟨passed, .architecture way read (mem_expansion.mp expanded) known, marked⟩
  mark := by
    rintro seen item name items ⟨passed, way, marked⟩ visited fresh next member
    obtain ⟨package, read, found, rfl⟩ := visitDependency_mark visited
    obtain ⟨line, listed, rfl⟩ := List.mem_map.mp (List.mem_reverse.mp member)
    have unpassed : name ∉ passed := fun passes => fresh (marked name passes)
    refine ⟨name :: passed, .depend way read ⟨package, found⟩ unpassed ⟨package, found, listed⟩, ?_⟩
    intro other passes
    rcases List.mem_cons.mp passes with rfl | earlier
    · exact List.mem_cons_self
    · exact List.mem_cons_of_mem _ (marked other earlier)

theorem rootQueue_queued {item : QueuedName} (member : item ∈ rootQueue roots) :
    Queued database roots architectures [] item := by
  obtain ⟨root, listed, rfl⟩ := List.mem_map.mp (List.mem_reverse.mp member)
  exact ⟨[], .root listed, fun _ never => (nomatch never)⟩

/-- What a line names on this way is marked when the line is done. -/
theorem done_standsFor {found : List Text} {line name : Text} {inherited : Option Architecture}
    (done : Done (visitDependency database architectures) found (line, inherited))
    (named : (dependencyGraph database roots architectures).StandsFor
      ((dependencyGraph database roots architectures).expands inherited) line name) : name ∈ found := by
  have marked : ∀ {item : QueuedName} {name : Text}, Done (visitDependency database architectures) found item →
      dependLine item.1 = .package name → (∃ package, database.get? name = some package) → name ∈ found := by
    rintro item name done read ⟨package, known⟩
    have visited : visitDependency database architectures item = _ := visitDependency_package read known
    cases done with
    | skip skipped => rw [visited] at skipped; cases skipped
    | push pushed => rw [visited] at pushed; cases pushed
    | mark other member =>
      rw [visited] at other
      cases other
      exact member
  cases named with
  | package read known => exact marked done read known
  | @architecture base arch read asked known =>
    have visited : visitDependency database architectures (line, inherited) = _ := visitDependency_architectures read
    cases done with
    | skip skipped => rw [visited] at skipped; cases skipped
    | mark other member => rw [visited] at other; cases other
    | push pushed rest =>
      rw [visited] at pushed
      cases pushed
      have queued : Done (visitDependency database architectures) found (candidate base arch, some arch) :=
        rest _ (mem_candidates.mpr ⟨arch, mem_expansion.mpr asked, known, rfl⟩)
      obtain ⟨package, found⟩ := known
      exact marked queued (dependLine_candidate (TexDatabase.packageName_of_get? found)) ⟨package, found⟩

/-- A search that ends has met every package it marks, and has marked every steady one. -/
theorem search_bounds {fuel : Nat} {found : List Text}
    (ended : search (visitDependency database architectures) fuel (rootQueue roots) [] = some (.ok found)) :
    (∀ name ∈ found, ∃ inherited, (dependencyGraph database roots architectures).Met name inherited) ∧
      ∀ name, (dependencyGraph database roots architectures).Steady name → name ∈ found := by
  have closed : Closed (visitDependency database architectures) (Queued database roots architectures) := closed_queued
  obtain ⟨_, done, opened⟩ := search_done closed ended fun _ => rootQueue_queued
  have entered : ∀ name ∈ found, ∃ inherited package,
      (dependencyGraph database roots architectures).Met name inherited ∧ database.get? name = some package ∧
      ∀ line ∈ package.depends, Done (visitDependency database architectures) found (line, inherited) := by
    intro name member
    rcases opened name member with never | ⟨earlier, item, items, ⟨passed, way, marked⟩, fresh, visited, next⟩
    · cases never
    · obtain ⟨package, read, known, rfl⟩ := visitDependency_mark visited
      refine ⟨item.2, package, ⟨passed, item.1, way, read, ⟨package, known⟩, fun passes => fresh (marked name passes)⟩,
        known, fun line listed => next _ (List.mem_reverse.mpr (List.mem_map.mpr ⟨line, listed, rfl⟩))⟩
  constructor
  · intro name member
    obtain ⟨inherited, _, met, _⟩ := entered name member
    exact ⟨inherited, met⟩
  · intro name steady
    induction steady with
    | @root line name root named =>
      have queued : (line, none) ∈ rootQueue roots := List.mem_reverse.mpr (List.mem_map.mpr ⟨line, root, rfl⟩)
      exact done_standsFor (done _ queued) named
    | @depend parent line name _ listed named ih =>
      obtain ⟨inherited, package, met, known, rest⟩ := entered parent ih
      obtain ⟨same, known', listed⟩ := listed
      obtain rfl : package = same := Option.some.inj (known.symm.trans known')
      exact done_standsFor (rest line listed) (named.mono fun arch all => all inherited met)

theorem weighed_visitDependency :
    Weighed (visitDependency database architectures) (dependencyWeight architectures)
      (dependencyBudget database architectures) (database.packages.map (·.name)) where
  positive item := by
    unfold dependencyWeight
    split <;> omega
  push := by
    intro item items visited
    obtain ⟨base, read, rfl⟩ := visitDependency_push visited
    have each : ∀ next ∈ candidates database architectures base item.2, dependencyWeight architectures next ≤ 1 := by
      intro next member
      obtain ⟨arch, _, ⟨package, found⟩, rfl⟩ := mem_candidates.mp member
      simp only [dependencyWeight, dependLine_candidate (TexDatabase.packageName_of_get? found), Nat.le_refl]
    have light := total_le_length_mul each
    have few : (candidates database architectures base item.2).length ≤ (expansion architectures item.2).length := by
      rw [candidates, List.length_reverse, List.length_map]
      exact List.length_filter_le _ _
    have here : dependencyWeight architectures item = (expansion architectures item.2).length + 1 := by
      simp only [dependencyWeight, read]
    omega
  mark := by
    intro item name items visited
    obtain ⟨package, read, found, rfl⟩ := visitDependency_mark visited
    obtain ⟨member, rfl⟩ := TexDatabase.get?_named found
    have each : ∀ next ∈ (package.depends.map fun line => (line, item.2)).reverse,
        dependencyWeight architectures next ≤ architectures.length + 2 := by
      intro next _
      unfold dependencyWeight
      split
      · cases next.2 <;> simp [expansion]
      · omega
    have light := total_le_length_mul each
    rw [List.length_reverse, List.length_map] at light
    have budget : dependencyBudget database architectures package.name =
        package.depends.length * (architectures.length + 2) := by
      simp only [dependencyBudget, found, Option.map_some, Option.getD_some]
    exact ⟨List.mem_map.mpr ⟨package, member, rfl⟩, budget ▸ light⟩

/-- The loop of `dependency_closure` ends. -/
theorem dependencyClosure_ends (database : TexDatabase) (roots : List Text) (architectures : List Architecture) :
    (dependencyClosure database roots architectures).isSome = true :=
  search_terminates weighed_visitDependency (Nat.lt_succ_self _)

end Search

/-- The same packages with the same lines, in any order. -/
def TexDatabase.Reordered (database other : TexDatabase) : Prop :=
  ∀ name, Option.Rel (fun package twin => package.depends.Perm twin.depends) (database.get? name) (other.get? name)

theorem TexDatabase.Reordered.graph {database other : TexDatabase} {roots turned : List Text}
    (reordered : database.Reordered other) (turns : roots.Perm turned) (architectures : List Architecture) :
    dependencyGraph other turned architectures = dependencyGraph database roots architectures := by
  have known : ∀ name, (∃ package, other.get? name = some package) ↔ ∃ package, database.get? name = some package := by
    intro name
    have here := reordered name
    generalize database.get? name = package, other.get? name = twin at here ⊢
    cases here with
    | some _ => simp
    | none => simp
  have lines : ∀ name line, (∃ package, other.get? name = some package ∧ line ∈ package.depends) ↔
      ∃ package, database.get? name = some package ∧ line ∈ package.depends := by
    intro name line
    have here := reordered name
    generalize database.get? name = package, other.get? name = twin at here ⊢
    cases here with
    | some same => simp [same.mem_iff]
    | none => simp
  have rooted : ∀ line, line ∈ turned ↔ line ∈ roots := fun line => turns.mem_iff.symm
  simp only [dependencyGraph, known, lines, rooted]

/-- Where no line depends on the way to it, the closure is the least set that the roots need, in any order. -/
theorem dependencyClosure_least {database : TexDatabase} {roots : List Text} {architectures : List Architecture}
    (free : (dependencyGraph database roots architectures).OrderFree) :
    (∀ result, dependencyClosure database roots architectures = some (.ok result) →
      IsLeast {names | (dependencyGraph database roots architectures).ClosedUnderDepends names}
        {name | name ∈ result}) ∧
    ∀ other turned result again, database.Reordered other → roots.Perm turned →
      dependencyClosure database roots architectures = some (.ok result) →
      dependencyClosure other turned architectures = some (.ok again) → ∀ name, name ∈ result ↔ name ∈ again := by
  have exactly : ∀ other turned result, dependencyGraph other turned architectures =
      dependencyGraph database roots architectures →
      dependencyClosure other turned architectures = some (.ok result) →
      ∀ name, name ∈ result ↔ (dependencyGraph database roots architectures).Needed name := by
    intro other turned result same ended name
    obtain ⟨met, steady⟩ := search_bounds ended
    rw [same] at met steady
    constructor
    · intro member
      obtain ⟨inherited, way⟩ := met name member
      exact free.needed name inherited way
    · intro needed
      exact steady name (free.steady name needed)
  constructor
  · intro result ended
    have same : {name | name ∈ result} = {name | (dependencyGraph database roots architectures).Needed name} :=
      Set.ext (exactly database roots result rfl ended)
    rw [same]
    exact needed_isLeast
  · intro other turned result again reordered turns ended endedAgain name
    have other := exactly other turned again (reordered.graph turns architectures) endedAgain name
    exact (exactly database roots result rfl ended name).trans other.symm

section FreeMirrors

variable {graph : DependencyGraph} {only : Architecture}

/-- A mirror is free of order where what a line means on a way is what it means in its package. -/
theorem orderFree_of_lines
    (loses : ∀ {package line name}, graph.Needed package → graph.lines package line →
      graph.StandsFor (graph.owed package) line name →
      graph.StandsFor (fun arch => ∀ inherited, graph.Met package inherited → graph.expands inherited arch) line name)
    (gains : ∀ {package inherited line name}, graph.Met package inherited → graph.lines package line →
      graph.StandsFor (graph.expands inherited) line name → graph.StandsFor (graph.owed package) line name) :
    graph.OrderFree := by
  constructor
  · intro name needed
    induction needed with
    | root root named => exact .root root named
    | depend needed listed named ih => exact .depend ih listed (loses needed listed named)
  · have reached : ∀ {passed line inherited}, graph.Way passed line inherited →
        ∀ name, graph.StandsFor (graph.expands inherited) line name → graph.Needed name := by
      intro passed line inherited way
      induction way with
      | root root => exact fun name named => .root root named
      | architecture _ read expanded known ih =>
        intro name named
        have needed := ih _ (.architecture read expanded known)
        cases named with
        | package own _ =>
          rw [dependLine_candidate (graph.named known)] at own
          cases own
          exact needed
        | architecture own _ _ =>
          rw [dependLine_candidate (graph.named known)] at own
          cases own
      | depend way read known fresh listed ih =>
        intro name named
        exact .depend (ih _ (.package read known)) listed (gains ⟨_, _, way, read, known, fresh⟩ listed named)
    rintro name inherited ⟨passed, line, way, read, known, _⟩
    exact reached way name (.package read known)

/-- A mirror of one architecture, without programs of another, is free of order. -/
theorem orderFree_of_single (enabled : ∀ arch, graph.enabled arch ↔ arch = only)
    (native : ∀ name arch, graph.known name → Specific name arch → arch = only) : graph.OrderFree := by
  have inheritance : ∀ {passed line inherited}, graph.Way passed line inherited →
      ∀ arch, graph.expands inherited arch ↔ arch = only := by
    intro passed line inherited way
    induction way with
    | root => exact enabled
    | architecture _ _ expanded _ ih =>
      have same := (ih _).mp expanded
      subst same
      exact fun _ => Iff.rfl
    | depend _ _ _ _ _ ih => exact ih
  have owes : ∀ name arch, graph.known name → (graph.owed name arch ↔ arch = only) := by
    intro name arch known
    constructor
    · rintro (specific | ⟨_, asked⟩)
      · exact native name arch known specific
      · exact (enabled arch).mp asked
    · rintro rfl
      by_cases specific : Specific name arch
      · exact .inl specific
      · refine .inr ⟨fun other has => specific ?_, (enabled arch).mpr rfl⟩
        exact native name other known has ▸ has
  have existing : ∀ {name}, graph.Needed name → graph.known name := by
    intro name needed
    cases needed with
    | root _ named => cases named <;> assumption
    | depend _ _ named => cases named <;> assumption
  refine orderFree_of_lines (fun needed _ named => named.mono fun arch asked inherited met => ?_)
    (fun met _ named => named.mono fun arch expanded => ?_)
  · obtain ⟨passed, line, way, _⟩ := met
    exact (inheritance way arch).mpr ((owes _ arch (existing needed)).mp asked)
  · obtain ⟨passed, line, way, _, known, _⟩ := met
    exact (owes _ arch known).mpr ((inheritance way arch).mp expanded)

/-- A mirror is free of order where only packages that every way meets without an architecture have `.ARCH` lines. -/
theorem orderFree_of_top (top : ∀ {package line base inherited}, graph.Met package inherited → graph.lines package line →
    dependLine line = .architectures base → inherited = none ∧ ∀ arch, ¬ Specific package arch) : graph.OrderFree := by
  refine orderFree_of_lines (fun _ listed named => ?_) (fun met listed named => ?_)
  · cases named with
    | package read known => exact .package read known
    | architecture read asked known =>
      refine .architecture read (fun inherited met => ?_) known
      obtain ⟨rfl, general⟩ := top met listed read
      rcases asked with specific | ⟨_, enabled⟩
      · exact absurd specific (general _)
      · exact enabled
  · cases named with
    | package read known => exact .package read known
    | architecture read expanded known =>
      obtain ⟨rfl, general⟩ := top met listed read
      exact .architecture read (.inr ⟨general, expanded⟩) known

end FreeMirrors

section Mirrors

/-- A collection with a package and its programs for two architectures. -/
def basicMirror : TexDatabase where
  packages :=
    [⟨"collection-basic".toList, ["tex".toList, "tex.ARCH".toList, "texworks.windows".toList]⟩,
      ⟨"tex".toList, ["kpathsea>=6".toList]⟩,
      ⟨"tex.x86_64-linux".toList, ["kpathsea".toList]⟩,
      ⟨"tex.aarch64-linux".toList, ["kpathsea".toList]⟩,
      ⟨"kpathsea".toList, []⟩]
  named := by decide
  distinct := by decide

/-- The architectures of the mirror. -/
abbrev basicArchitectures : List Architecture := [.amd64, .arm64]

theorem basicMirror_lines : ∀ package ∈ basicMirror.packages,
    (∀ line ∈ package.depends, dependLine line ≠ .package "collection-basic".toList) ∧
      (package.name = "collection-basic".toList ∨ ∀ line ∈ package.depends, dependLine line = .package "kpathsea".toList) := by
  decide

theorem basicMirror_free :
    (dependencyGraph basicMirror ["collection-basic".toList] basicArchitectures).OrderFree := by
  apply orderFree_of_top
  rintro name line base inherited ⟨passed, first, way, read, _, _⟩ ⟨package, found, listed⟩ turned
  obtain ⟨member, rfl⟩ := TexDatabase.get?_named found
  rcases (basicMirror_lines package member).2 with collection | plain
  · rw [collection] at read ⊢
    constructor
    · cases way with
      | root => rfl
      | architecture _ _ _ known =>
        rw [dependLine_candidate (DependencyGraph.named _ known)] at read
        have last := candidate_getLast? _ _ ▸ congrArg List.getLast? (DependLine.package.inj read)
        exact absurd last (by decide)
      | depend _ _ _ _ lines =>
        obtain ⟨other, there, among⟩ := lines
        exact absurd read ((basicMirror_lines other (TexDatabase.get?_named there).1).1 first among)
    · intro arch specific
      have ends := List.isSuffixOf_iff_suffix.mpr specific
      revert ends
      cases arch <;> decide
  · have named := plain line listed
    rw [turned] at named
    cases named

/-- The closure of the collection. -/
theorem dependencyClosure_basicMirror :
    IsLeast {names | (dependencyGraph basicMirror ["collection-basic".toList] basicArchitectures).ClosedUnderDepends names}
      {name | name ∈ ["tex".toList, "tex.x86_64-linux".toList, "kpathsea".toList, "tex.aarch64-linux".toList,
        "collection-basic".toList]} :=
  (dependencyClosure_least basicMirror_free).1 _ (by decide)

/-- A package that the programs of one architecture need, and that has programs for both. -/
def sharedMirror (lines : List Text) : TexDatabase where
  packages :=
    [⟨"collection-basic".toList, lines⟩,
      ⟨"web.x86_64-linux".toList, ["shared".toList]⟩,
      ⟨"shared".toList, ["tool.ARCH".toList]⟩,
      ⟨"tool.x86_64-linux".toList, []⟩,
      ⟨"tool.aarch64-linux".toList, []⟩]
  named := by
    intro package member
    simp only [List.mem_cons, List.not_mem_nil, or_false] at member
    rcases member with rfl | rfl | rfl | rfl | rfl <;> rfl
  distinct := by
    simp only [List.map_cons, List.map_nil]
    decide

/-- The shared package is met first on the way of one architecture and brings its programs for that one only; with
the two lines of the collection the other way round it brings both. -/
theorem dependencyClosure_shared_lost :
    dependencyClosure (sharedMirror ["shared".toList, "web.ARCH".toList]) ["collection-basic".toList] [.amd64, .arm64] =
      some (.ok ["tool.x86_64-linux".toList, "shared".toList, "web.x86_64-linux".toList, "collection-basic".toList]) ∧
    ¬ IsLeast
      {names | (dependencyGraph (sharedMirror ["shared".toList, "web.ARCH".toList]) ["collection-basic".toList]
        [.amd64, .arm64]).ClosedUnderDepends names}
      {name | name ∈ ["tool.x86_64-linux".toList, "shared".toList, "web.x86_64-linux".toList,
        "collection-basic".toList]} ∧
    dependencyClosure (sharedMirror ["web.ARCH".toList, "shared".toList]) ["collection-basic".toList] [.amd64, .arm64] =
      some (.ok ["web.x86_64-linux".toList, "tool.x86_64-linux".toList, "tool.aarch64-linux".toList, "shared".toList,
        "collection-basic".toList]) := by
  refine ⟨by decide, ?_, by decide⟩
  rintro ⟨closed, -⟩
  have collection := closed.roots List.mem_cons_self
    (.package (by decide : dependLine "collection-basic".toList = .package "collection-basic".toList) ⟨_, rfl⟩)
  have shared := closed.depends collection ⟨_, rfl, List.mem_cons_self⟩
    (.package (by decide : dependLine "shared".toList = .package "shared".toList) ⟨_, rfl⟩)
  have general : ∀ arch, ¬ Specific "shared".toList arch := by
    intro arch specific
    have ends := List.isSuffixOf_iff_suffix.mpr specific
    revert ends
    cases arch <;> decide
  have enabled : Architecture.arm64 ∈ [Architecture.amd64, .arm64] := by decide
  have tool := closed.depends shared ⟨_, rfl, List.mem_cons_self⟩
    (.architecture (by decide : dependLine "tool.ARCH".toList = .architectures "tool".toList)
      (.inr ⟨general, enabled⟩) ⟨_, rfl⟩)
  revert tool
  decide

end Mirrors

end LatexRenderer
