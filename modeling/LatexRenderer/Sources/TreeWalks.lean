import Mathlib.Data.List.Perm.Basic
import LatexRenderer.Model.Sources.VerifiedTree

/-! # What a walk of a tree finds

`inventory` reads directories from a stack. Whatever its order, it finds exactly what is below the root, once, and it
succeeds exactly if every entry fits and the totals do.
-/

namespace LatexRenderer

open Machine

variable {check : TreeCheck} {device : Nat} {parts : List Text}

/-- What is at a path. -/
abbrev Found : Type := List Text × TreeNode

mutual

/-- What is below a node. -/
def TreeNode.listing (parts : List Text) : TreeNode → List Found
  | .file _ _ _ _ => []
  | .directory _ _ entries => entries.listing parts
  | .special _ => []

/-- The entries of a directory and what is below them. -/
def TreeEntries.listing (parts : List Text) : TreeEntries → List Found
  | .nil => []
  | .cons name node rest => (parts ++ [name], node) :: (node.listing (parts ++ [name]) ++ rest.listing parts)

end

/-- The entries of a directory. -/
def TreeEntries.here (parts : List Text) : TreeEntries → List Found
  | .nil => []
  | .cons name node rest => (parts ++ [name], node) :: rest.here parts

/-- A directory, as the walk remembers it until it is read. -/
def subdirectory? : Found → Option (List Text × TreeEntries)
  | (parts, .directory _ _ entries) => some (parts, entries)
  | _ => none

/-- A file, as the walk lists it. -/
def fileOf? : Found → Option (Text × Nat × Octets)
  | (parts, .file mode _ _ content) => some (joinText '/' parts, mode, content)
  | _ => none

/-- A directory, as the walk lists it. -/
def directoryOf? : Found → Option (Text × Nat)
  | (parts, .directory mode _ _) => some (joinText '/' parts, mode)
  | _ => none

/-- What is below the directories that are still to be read. -/
def pendingBelow (pending : List (List Text × TreeEntries)) : List Found :=
  pending.flatMap fun directory => directory.2.listing directory.1

/-- What is below a directory is what is in it and what is below that. -/
theorem listing_perm (parts : List Text) : ∀ entries : TreeEntries,
    (entries.listing parts).Perm (entries.here parts ++ pendingBelow ((entries.here parts).filterMap subdirectory?))
  | .nil => .refl _
  | .cons name node rest => by
    have later := listing_perm parts rest
    refine .cons _ ?_
    cases node with
    | file mode links device content => exact later
    | special device => exact later
    | directory mode device entries =>
      show (entries.listing (parts ++ [name]) ++ rest.listing parts).Perm
        (rest.here parts ++ (entries.listing (parts ++ [name]) ++ pendingBelow ((rest.here parts).filterMap subdirectory?)))
      refine (later.append_left _).trans ?_
      rw [← List.append_assoc, ← List.append_assoc]
      exact List.perm_append_comm.append_right _

section Reading

/-- What a walk accepts of a node at a path. -/
structure TreeNode.FitsAt (check : TreeCheck) (device : Nat) (parts : List Text) (node : TreeNode) : Prop where
  device : node.device = device
  backslash : '\\' ∉ joinText '/' parts
  depth : (splitText '/' (joinText '/' parts)).length ≤ check.limits.maxDepth
  kind : match node with
    | .directory _ _ _ => True
    | .file _ links _ content => links = 1 ∧ content.length ≤ check.limits.maxFileBytes ∧
      ∃ path, validateSourceFilePath check.toLowerCase check.limits (joinText '/' parts) = .ok path
    | .special _ => False

/-- What a walk accepts of what it finds. -/
abbrev Fits (check : TreeCheck) (device : Nat) (found : Found) : Prop := found.2.FitsAt check device found.1

/-- The walk after it has found more. -/
def TreeWalk.extend (x : TreeWalk) (found : List Found) : TreeWalk where
  entries := x.entries + found.length
  bytes := x.bytes + ((found.filterMap fileOf?).map fun file => file.2.2.length).sum
  files := x.files ++ found.filterMap fileOf?
  directories := x.directories ++ found.filterMap directoryOf?
  pending := x.pending ++ found.filterMap subdirectory?

/-- The totals of a walk. -/
structure Within (check : TreeCheck) (x : TreeWalk) : Prop where
  entries : x.entries ≤ check.limits.maxEntries
  bytes : x.bytes ≤ check.limits.maxExtractedBytes
  files : x.files.length ≤ check.limits.maxFiles

variable {x y : TreeWalk} {node : TreeNode} {first second found : List Found}

@[simp] theorem TreeWalk.extend_nil (x : TreeWalk) : x.extend [] = x := by simp [TreeWalk.extend]

theorem TreeWalk.extend_append (x : TreeWalk) (first second : List Found) :
    x.extend (first ++ second) = (x.extend first).extend second := by
  simp [TreeWalk.extend, Nat.add_assoc]

theorem TreeWalk.extend_directory {mode : Nat} {entries : TreeEntries} :
    x.extend [(parts, .directory mode device entries)] =
      { x with
        entries := x.entries + 1
        directories := x.directories ++ [(joinText '/' parts, mode)]
        pending := x.pending ++ [(parts, entries)] } := by
  simp [TreeWalk.extend, List.filterMap_cons, fileOf?, directoryOf?, subdirectory?]

theorem TreeWalk.extend_file {mode links : Nat} {content : Octets} :
    x.extend [(parts, .file mode links device content)] =
      { x with
        entries := x.entries + 1
        bytes := x.bytes + content.length
        files := x.files ++ [(joinText '/' parts, mode, content)] } := by
  simp [TreeWalk.extend, List.filterMap_cons, fileOf?, directoryOf?, subdirectory?]

theorem Within.of_append (within : Within check (x.extend (first ++ second))) : Within check (x.extend first) := by
  rw [TreeWalk.extend_append] at within
  exact ⟨(Nat.le_add_right _ _).trans within.entries, (Nat.le_add_right _ _).trans within.bytes,
    (List.sublist_append_left _ _).length_le.trans within.files⟩

theorem Within.of_perm (within : Within check (x.extend first)) (same : first.Perm second) :
    Within check (x.extend second) := by
  have files := same.filterMap fileOf?
  constructor
  · show x.entries + second.length ≤ _
    rw [← same.length_eq]
    exact within.entries
  · have sums := (files.map fun file => file.2.2.length).sum_eq
    show x.bytes + _ ≤ _
    rw [← sums]
    exact within.bytes
  · show (x.files ++ _).length ≤ _
    rw [List.length_append, ← files.length_eq, ← List.length_append]
    exact within.files

/-- One entry is accepted if it fits and the totals do. -/
theorem readTreeEntry_eq_ok (within : Within check x) :
    readTreeEntry check device parts node x = .ok y ↔
      Fits check device (parts, node) ∧ Within check (x.extend [(parts, node)]) ∧ y = x.extend [(parts, node)] := by
  unfold readTreeEntry
  dsimp only
  rw [demand_bind_eq_ok, demand_bind_eq_ok]
  cases node with
  | directory mode device' entries =>
    rw [TreeWalk.extend_directory]
    constructor
    · rintro ⟨few, ⟨same, backslash, depth⟩, read⟩
      cases read
      exact ⟨⟨same, backslash, depth, trivial⟩, ⟨few, within.bytes, within.files⟩, rfl⟩
    · rintro ⟨fits, total, rfl⟩
      exact ⟨total.entries, ⟨fits.device, fits.backslash, fits.depth⟩, rfl⟩
  | file mode links device' content =>
    rw [TreeWalk.extend_file, bind_eq_ok]
    constructor
    · rintro ⟨few, ⟨same, backslash, depth⟩, path, accepted, read⟩
      obtain ⟨⟨single, short, bytes, files⟩, read⟩ := demand_bind_eq_ok.mp read
      cases read
      refine ⟨⟨same, backslash, depth, single, short, path, accepted⟩, ⟨few, bytes, ?_⟩, rfl⟩
      simpa using files
    · rintro ⟨fits, total, rfl⟩
      obtain ⟨single, short, path, accepted⟩ := fits.kind
      have files : x.files.length < check.limits.maxFiles := by simpa using total.files
      exact ⟨total.entries, ⟨fits.device, fits.backslash, fits.depth⟩, path, accepted,
        demand_bind_eq_ok.mpr ⟨⟨single, short, total.bytes, files⟩, rfl⟩⟩
  | special device' =>
    constructor
    · rintro ⟨-, -, read⟩
      obtain ⟨_, -, never⟩ := bind_eq_ok.mp read
      cases never
    · rintro ⟨fits, -, -⟩
      exact fits.kind.elim

/-- A directory is read if its entries fit and the totals do. -/
theorem readTreeEntries_eq_ok (parts : List Text) : ∀ (entries : TreeEntries) {x y : TreeWalk}, Within check x →
    (readTreeEntries check device parts entries x = .ok y ↔
      (∀ found ∈ entries.here parts, Fits check device found) ∧ Within check (x.extend (entries.here parts)) ∧
        y = x.extend (entries.here parts))
  | .nil, x, y, within => by
    simp only [readTreeEntries, TreeEntries.here, Except.ok.injEq, TreeWalk.extend_nil]
    exact ⟨fun same => ⟨by simp, within, same.symm⟩, fun ⟨_, _, same⟩ => same.symm⟩
  | .cons name node rest, x, y, within => by
    rw [readTreeEntries, bind_eq_ok, TreeEntries.here, List.forall_mem_cons]
    rw [show x.extend ((parts ++ [name], node) :: rest.here parts) =
      (x.extend [(parts ++ [name], node)]).extend (rest.here parts) from x.extend_append [_] _]
    constructor
    · rintro ⟨z, first, later⟩
      obtain ⟨fits, total, rfl⟩ := (readTreeEntry_eq_ok within).mp first
      obtain ⟨others, whole, rfl⟩ := (readTreeEntries_eq_ok parts rest total).mp later
      exact ⟨⟨fits, others⟩, whole, rfl⟩
    · rintro ⟨⟨fits, others⟩, whole, rfl⟩
      have total : Within check (x.extend [(parts ++ [name], node)]) := by
        refine @Within.of_append check x [(parts ++ [name], node)] (rest.here parts) ?_
        rw [TreeWalk.extend_append]
        exact whole
      exact ⟨_, (readTreeEntry_eq_ok within).mpr ⟨fits, total, rfl⟩,
        (readTreeEntries_eq_ok parts rest total).mpr ⟨others, whole, rfl⟩⟩

end Reading

section Walking

variable {x y : TreeWalk} {fuel : Nat}

theorem pendingBelow_append (first second : List (List Text × TreeEntries)) :
    pendingBelow (first ++ second) = pendingBelow first ++ pendingBelow second := List.flatMap_append

/-- What is still to be found once a directory was read. -/
theorem pendingBelow_perm (front : List (List Text × TreeEntries)) (parts : List Text) (entries : TreeEntries) :
    (pendingBelow (front ++ [(parts, entries)])).Perm
      (entries.here parts ++ pendingBelow (front ++ (entries.here parts).filterMap subdirectory?)) := by
  rw [pendingBelow_append, pendingBelow_append, show pendingBelow [(parts, entries)] = entries.listing parts from
    List.append_nil _]
  refine ((listing_perm parts entries).append_left _).trans ?_
  rw [← List.append_assoc, ← List.append_assoc]
  exact List.perm_append_comm.append_right _

/-- What a walk accepts fits, and it has found all that was to be found. -/
theorem walkTree_sound (within : Within check x) (walked : walkTree check device fuel x = .ok y) :
    ∃ found, found.Perm (pendingBelow x.pending) ∧ (∀ item ∈ found, Fits check device item) ∧ Within check y ∧
      y = { x.extend found with pending := [] } := by
  induction fuel generalizing x with
  | zero =>
    rw [walkTree] at walked
    split at walked
    · next empty =>
      cases walked
      refine ⟨[], by rw [empty]; exact .refl _, by simp, within, ?_⟩
      rw [TreeWalk.extend_nil, ← empty]
    · cases walked
  | succ fuel ih =>
    rw [walkTree] at walked
    split at walked
    · next none =>
      cases walked
      have empty := List.getLast?_eq_none_iff.mp none
      refine ⟨[], by rw [empty]; exact .refl _, by simp, within, ?_⟩
      rw [TreeWalk.extend_nil, ← empty]
    · next parts entries last =>
      obtain ⟨front, pending⟩ := List.getLast?_eq_some_iff.mp last
      obtain ⟨z, read, walked⟩ := bind_eq_ok.mp walked
      rw [pending, List.dropLast_concat] at read
      have smaller : Within check { x with pending := front } := ⟨within.entries, within.bytes, within.files⟩
      obtain ⟨fits, total, rfl⟩ := (readTreeEntries_eq_ok parts entries smaller).mp read
      obtain ⟨found, all, later, whole, rfl⟩ := ih total walked
      refine ⟨entries.here parts ++ found, ?_, ?_, whole, ?_⟩
      · rw [pending]
        exact (all.append_left _).trans (pendingBelow_perm front parts entries).symm
      · intro item member
        rcases List.mem_append.mp member with here | further
        · exact fits item here
        · exact later item further
      · rw [← TreeWalk.extend_append]
        rfl

/-- A walk accepts what fits, if it may read as many directories as there are. -/
theorem walkTree_complete (within : Within check x) (fits : ∀ item ∈ pendingBelow x.pending, Fits check device item)
    (total : Within check (x.extend (pendingBelow x.pending)))
    (enough : x.pending.length + ((pendingBelow x.pending).filterMap subdirectory?).length ≤ fuel) :
    ∃ y, walkTree check device fuel x = .ok y := by
  induction fuel generalizing x with
  | zero =>
    have empty : x.pending = [] := List.length_eq_zero_iff.mp (by omega)
    exact ⟨x, by rw [walkTree, if_pos empty]⟩
  | succ fuel ih =>
    rw [walkTree]
    rcases List.eq_nil_or_concat x.pending with empty | ⟨front, ⟨parts, entries⟩, pending⟩
    · rw [empty]
      exact ⟨x, rfl⟩
    · have shape := pendingBelow_perm front parts entries
      rw [List.concat_eq_append] at pending
      rw [pending] at fits total enough ⊢
      rw [List.getLast?_concat, List.dropLast_concat]
      dsimp only
      have listed : ∀ item ∈ entries.here parts, Fits check device item := fun item member =>
        fits item (shape.mem_iff.mpr (List.mem_append_left _ member))
      have smaller : Within check { x with pending := front } := ⟨within.entries, within.bytes, within.files⟩
      have grown : Within check ({ x with pending := front }.extend
          (entries.here parts ++ pendingBelow (front ++ (entries.here parts).filterMap subdirectory?))) := by
        have same := total.of_perm shape
        exact ⟨same.entries, same.bytes, same.files⟩
      have read := (readTreeEntries_eq_ok parts entries smaller).mpr ⟨listed, grown.of_append, rfl⟩
      rw [read]
      refine ih grown.of_append ?_ ?_ ?_
      · intro item member
        exact fits item (shape.mem_iff.mpr (List.mem_append_right _ member))
      · rw [TreeWalk.extend_append] at grown
        exact grown
      · have count := (shape.filterMap subdirectory?).length_eq
        rw [List.filterMap_append, List.length_append] at count
        rw [List.length_append, List.length_singleton] at enough
        show (front ++ (entries.here parts).filterMap subdirectory?).length + _ ≤ fuel
        rw [List.length_append]
        change _ + _ + ((pendingBelow (front ++ (entries.here parts).filterMap subdirectory?)).filterMap
          subdirectory?).length ≤ fuel
        omega

end Walking

section Listing

/-- A name is that of a file. -/
def GoodName (name : Text) : Prop := '/' ∉ name ∧ name ≠ []

mutual

theorem TreeNode.listing_names (parts : List Text) : ∀ node : TreeNode, node.Named → ∀ item ∈ node.listing parts,
    ∃ name later, item.1 = parts ++ name :: later ∧ ∀ part ∈ name :: later, GoodName part
  | .file _ _ _ _, _, _, never => by cases never
  | .special _, _, _, never => by cases never
  | .directory _ _ entries, named, item, member => by
    obtain ⟨name, -, later, same, good⟩ := TreeEntries.listing_names parts entries named.2 item member
    exact ⟨name, later, same, good⟩

/-- What is listed has a path that goes on with a name of the directory. -/
theorem TreeEntries.listing_names (parts : List Text) : ∀ entries : TreeEntries, entries.Named →
    ∀ item ∈ entries.listing parts, ∃ name ∈ entries.names, ∃ later, item.1 = parts ++ name :: later ∧
      ∀ part ∈ name :: later, GoodName part
  | .nil, _, _, never => by cases never
  | .cons name node rest, ⟨good, node', rest'⟩, item, member => by
    rcases List.mem_cons.mp member with rfl | deeper
    · exact ⟨name, List.mem_cons_self, [], rfl, by simpa [GoodName] using good⟩
    · rcases List.mem_append.mp deeper with below | beside
      · obtain ⟨next, later, same, good'⟩ := TreeNode.listing_names (parts ++ [name]) node node' item below
        refine ⟨name, List.mem_cons_self, next :: later, by rw [same, List.append_assoc]; rfl, ?_⟩
        exact List.forall_mem_cons.mpr ⟨good, good'⟩
      · obtain ⟨other, listed, later, same, good'⟩ := TreeEntries.listing_names parts rest rest' item beside
        exact ⟨other, List.mem_cons_of_mem _ listed, later, same, good'⟩

end

mutual

theorem TreeNode.listing_nodup (parts : List Text) : ∀ node : TreeNode, node.Named →
    ((node.listing parts).map Prod.fst).Nodup
  | .file _ _ _ _, _ => List.nodup_nil
  | .special _, _ => List.nodup_nil
  | .directory _ _ entries, named => TreeEntries.listing_nodup parts entries named.2 named.1

theorem TreeEntries.listing_nodup (parts : List Text) : ∀ entries : TreeEntries, entries.Named → entries.names.Nodup →
    ((entries.listing parts).map Prod.fst).Nodup
  | .nil, _, _ => List.nodup_nil
  | .cons name node rest, ⟨_, node', rest'⟩, distinct => by
    obtain ⟨fresh, others⟩ := List.nodup_cons.mp distinct
    have beside : ∀ path ∈ (rest.listing parts).map Prod.fst, ∀ later, path ≠ parts ++ name :: later := by
      intro path member later same
      obtain ⟨item, listed, rfl⟩ := List.mem_map.mp member
      obtain ⟨other, there, more, shape, -⟩ := TreeEntries.listing_names parts rest rest' item listed
      rw [same, List.append_cancel_left_eq, List.cons.injEq] at shape
      exact fresh (shape.1 ▸ there)
    have below : ∀ path ∈ (node.listing (parts ++ [name])).map Prod.fst, ∃ next later, path = parts ++ name :: next :: later := by
      intro path member
      obtain ⟨item, listed, rfl⟩ := List.mem_map.mp member
      obtain ⟨next, later, shape, -⟩ := TreeNode.listing_names (parts ++ [name]) node node' item listed
      exact ⟨next, later, by rw [shape, List.append_assoc]; rfl⟩
    rw [TreeEntries.listing, List.map_cons, List.map_append]
    refine List.nodup_cons.mpr ⟨fun member => ?_, List.nodup_append.mpr ⟨TreeNode.listing_nodup _ node node',
      TreeEntries.listing_nodup parts rest rest' others, ?_⟩⟩
    · rcases List.mem_append.mp member with inside | outside
      · obtain ⟨next, later, same⟩ := below _ inside
        simp at same
      · exact beside _ outside [] rfl
    · rintro path inside other outside rfl
      obtain ⟨next, later, same⟩ := below _ inside
      exact beside _ outside _ same

end

/-- A path of good names is known from its text. -/
theorem joinText_good {first second : List Text} (one : ∀ part ∈ first, GoodName part) (two : ∀ part ∈ second, GoodName part)
    (same : joinText '/' first = joinText '/' second) : first = second := by
  have empty : ∀ path : List Text, (∀ part ∈ path, GoodName part) → joinText '/' path = [] → path = [] := by
    intro path good none
    by_contra some
    have split := splitText_joinText '/' some fun part member => (good part member).1
    rw [none] at split
    exact (good [] (split ▸ List.mem_singleton_self _)).2 rfl
  by_cases none : first = []
  · subst none
    exact (empty second two same.symm).symm
  · have some : second ≠ [] := fun nothing => by
      subst nothing
      exact none (empty first one same)
    rw [← splitText_joinText '/' none fun part member => (one part member).1,
      ← splitText_joinText '/' some fun part member => (two part member).1, same]

end Listing

section Sorting

variable {β : Type}

theorem pathBefore_trans (a b c : Text × β) (first : pathBefore a b = true) (second : pathBefore b c = true) :
    pathBefore a c = true := unitsBefore_trans first second

theorem pathBefore_total (a b : Text × β) : (pathBefore a b || pathBefore b a) = true :=
  Bool.or_eq_true_iff.mpr (unitsBefore_total _ _)

/-- Sorting by paths does not depend on the order before. -/
theorem mergeSort_eq {first second : List (Text × β)} (keys : (first.map Prod.fst).Nodup) (same : first.Perm second) :
    first.mergeSort pathBefore = second.mergeSort pathBefore := by
  have sorted := List.mergeSort_perm first pathBefore
  have sorted' := List.mergeSort_perm second pathBefore
  refine List.Perm.eq_of_pairwise (fun a b one two before after => ?_)
    (List.pairwise_mergeSort pathBefore_trans pathBefore_total first)
    (List.pairwise_mergeSort pathBefore_trans pathBefore_total second) ((sorted.trans same).trans sorted'.symm)
  have paths : a.1 = b.1 := utf16Units_injective (unitsBefore_antisymm before after)
  have there : b ∈ first := same.mem_iff.mpr (sorted'.mem_iff.mp two)
  exact List.inj_on_of_nodup_map keys (sorted.mem_iff.mp one) there paths

end Sorting

end LatexRenderer
