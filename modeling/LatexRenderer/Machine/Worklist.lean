import LatexRenderer.Machine.Table

/-! # Searches with a list of work

A search takes items from a list. An item is skipped, replaced by others, or marked under its key, and then
its own items are added the first time that the key is met. When the search ends, every item that was ever on
the list is done, and every marked key was opened by one of its items; which one is left to the order. A search
ends when replacing an item makes the work lighter and the keys are finitely many.
-/

namespace Machine

universe u v w

/-- What becomes of an item. -/
inductive Visit (ε : Type u) (κ : Type v) (ι : Type w) where
  | skip
  | push (items : List ι)
  | mark (key : κ) (items : List ι)
  | fail (error : ε)

variable {ε : Type u} {κ : Type v} {ι : Type w} [DecidableEq κ]

/-- The search, in at most so many steps; the head of the list is taken first. -/
def search (visit : ι → Visit ε κ ι) : Nat → List ι → List κ → Option (Except ε (List κ))
  | 0, _, _ => none
  | _ + 1, [], seen => some (.ok seen)
  | fuel + 1, item :: queue, seen =>
    match visit item with
    | .skip => search visit fuel queue seen
    | .push items => search visit fuel (items ++ queue) seen
    | .mark key items =>
      if key ∈ seen then search visit fuel queue seen else search visit fuel (items ++ queue) (key :: seen)
    | .fail error => some (.error error)

variable {visit : ι → Visit ε κ ι} {fuel : Nat} {queue : List ι} {seen found : List κ}

/-- The item leads to nothing that is not marked. -/
inductive Done (visit : ι → Visit ε κ ι) (seen : List κ) : ι → Prop
  | skip {item : ι} (skipped : visit item = .skip) : Done visit seen item
  | push {item : ι} {items : List ι} (pushed : visit item = .push items) (done : ∀ next ∈ items, Done visit seen next) :
      Done visit seen item
  | mark {item : ι} {key : κ} {items : List ι} (marked : visit item = .mark key items) (member : key ∈ seen) :
      Done visit seen item

/-- The key was opened by an item of the kind, before it was marked, and what came with it is done. -/
def Opened (visit : ι → Visit ε κ ι) (P : List κ → ι → Prop) (seen : List κ) (key : κ) : Prop :=
  ∃ earlier item items, P earlier item ∧ key ∉ earlier ∧ visit item = .mark key items ∧
    ∀ next ∈ items, Done visit seen next

/-- A property of the items on the list, beside the keys that are marked, that a search keeps. -/
structure Closed (visit : ι → Visit ε κ ι) (P : List κ → ι → Prop) : Prop where
  later : ∀ {seen key item}, P seen item → P (key :: seen) item
  push : ∀ {seen item items}, P seen item → visit item = .push items → ∀ next ∈ items, P seen next
  mark : ∀ {seen item key items}, P seen item → visit item = .mark key items → key ∉ seen →
    ∀ next ∈ items, P (key :: seen) next

/-- What a search that has ended has done. -/
theorem search_done {P : List κ → ι → Prop} (closed : Closed visit P)
    (ended : search visit fuel queue seen = some (.ok found)) (start : ∀ item ∈ queue, P seen item) :
    (∀ key ∈ seen, key ∈ found) ∧ (∀ item ∈ queue, Done visit found item) ∧
      ∀ key ∈ found, key ∈ seen ∨ Opened visit P found key := by
  induction fuel generalizing queue seen with
  | zero => cases ended
  | succ fuel ih =>
    cases queue with
    | nil =>
      cases ended
      exact ⟨fun _ member => member, fun _ never => (nomatch never), fun _ member => .inl member⟩
    | cons item queue =>
      have here : P seen item := start item List.mem_cons_self
      have rest : ∀ next ∈ queue, P seen next := fun next member => start next (List.mem_cons_of_mem _ member)
      rw [search] at ended
      cases visited : visit item with
      | skip =>
        rw [visited] at ended
        obtain ⟨kept, done, opened⟩ := ih ended rest
        refine ⟨kept, fun next member => ?_, opened⟩
        rcases List.mem_cons.mp member with rfl | later
        · exact .skip visited
        · exact done next later
      | push items =>
        rw [visited] at ended
        obtain ⟨kept, done, opened⟩ := ih ended fun next member =>
          (List.mem_append.mp member).elim (closed.push here visited next) (rest next)
        refine ⟨kept, fun next member => ?_, opened⟩
        rcases List.mem_cons.mp member with rfl | later
        · exact .push visited fun other added => done other (List.mem_append_left _ added)
        · exact done next (List.mem_append_right _ later)
      | mark key items =>
        rw [visited] at ended
        dsimp only at ended
        split at ended
        · next known =>
          obtain ⟨kept, done, opened⟩ := ih ended rest
          refine ⟨kept, fun next member => ?_, opened⟩
          rcases List.mem_cons.mp member with rfl | later
          · exact .mark visited (kept key known)
          · exact done next later
        · next fresh =>
          obtain ⟨kept, done, opened⟩ := ih ended fun next member =>
            (List.mem_append.mp member).elim (closed.mark here visited fresh next) fun old => closed.later (rest next old)
          have marked : key ∈ found := kept key List.mem_cons_self
          refine ⟨fun other member => kept other (List.mem_cons_of_mem _ member), fun next member => ?_,
            fun other member => ?_⟩
          · rcases List.mem_cons.mp member with rfl | later
            · exact .mark visited marked
            · exact done next (List.mem_append_right _ later)
          · rcases opened other member with before | opened
            · rcases List.mem_cons.mp before with rfl | earlier
              · exact .inr ⟨seen, item, items, here, fresh, visited,
                  fun next added => done next (List.mem_append_left _ added)⟩
              · exact .inl earlier
            · exact .inr opened
      | fail error =>
        rw [visited] at ended
        cases ended

section Termination

/-- The weight of the work that is left. -/
def capacity (weight : ι → Nat) (budget : κ → Nat) (keys : List κ) (queue : List ι) (seen : List κ) : Nat :=
  total weight queue + total (fun key => if key ∈ seen then 0 else budget key) keys

theorem total_le_length_mul {α : Type w} {load : α → Nat} {rows : List α} {bound : Nat}
    (each : ∀ row ∈ rows, load row ≤ bound) : total load rows ≤ rows.length * bound := by
  induction rows with
  | nil => exact Nat.zero_le _
  | cons first rest ih =>
    have here : load first ≤ bound := each first List.mem_cons_self
    have later := ih fun row member => each row (List.mem_cons_of_mem _ member)
    rw [total_cons, List.length_cons, Nat.succ_mul]
    omega

/-- Replacing an item makes it lighter, and a key pays for the items that it brings. -/
structure Weighed (visit : ι → Visit ε κ ι) (weight : ι → Nat) (budget : κ → Nat) (keys : List κ) : Prop where
  positive : ∀ item, 0 < weight item
  push : ∀ {item items}, visit item = .push items → total weight items < weight item
  mark : ∀ {item key items}, visit item = .mark key items → key ∈ keys ∧ total weight items ≤ budget key

variable {weight : ι → Nat} {budget : κ → Nat} {keys : List κ}

theorem total_seen_le (key : κ) : total (fun other => if other ∈ key :: seen then 0 else budget other) keys ≤
    total (fun other => if other ∈ seen then 0 else budget other) keys := by
  induction keys with
  | nil => exact Nat.le_refl _
  | cons first rest ih =>
    have here : (if first ∈ key :: seen then 0 else budget first) ≤ if first ∈ seen then 0 else budget first := by
      by_cases before : first ∈ seen
      · simp [before]
      · rw [if_neg before]
        split
        · exact Nat.zero_le _
        · exact Nat.le_refl _
    simp only [total_cons]
    omega

/-- A key that is marked for the first time gives up its budget. -/
theorem total_seen_add_le {key : κ} (member : key ∈ keys) (fresh : key ∉ seen) :
    total (fun other => if other ∈ key :: seen then 0 else budget other) keys + budget key ≤
      total (fun other => if other ∈ seen then 0 else budget other) keys := by
  induction keys with
  | nil => cases member
  | cons first rest ih =>
    have others : total (fun other => if other ∈ key :: seen then 0 else budget other) rest ≤
        total (fun other => if other ∈ seen then 0 else budget other) rest := total_seen_le key
    simp only [total_cons]
    rcases List.mem_cons.mp member with rfl | later
    · rw [if_pos List.mem_cons_self, if_neg fresh]
      omega
    · have rest := ih later
      have here : (if first ∈ key :: seen then 0 else budget first) ≤ if first ∈ seen then 0 else budget first := by
        by_cases before : first ∈ seen
        · simp [before]
        · rw [if_neg before]
          split
          · exact Nat.zero_le _
          · exact Nat.le_refl _
      omega

/-- A search that is weighed ends. -/
theorem search_terminates (weighed : Weighed visit weight budget keys)
    (enough : capacity weight budget keys queue seen < fuel) : (search visit fuel queue seen).isSome = true := by
  induction fuel generalizing queue seen with
  | zero => omega
  | succ fuel ih =>
    cases queue with
    | nil => rfl
    | cons item queue =>
      have positive := weighed.positive item
      rw [search]
      simp only [capacity, total_cons] at enough
      cases visited : visit item with
      | skip => exact ih (by simp only [capacity]; omega)
      | push items =>
        have lighter := weighed.push visited
        exact ih (by simp only [capacity, total_append]; omega)
      | mark key items =>
        obtain ⟨member, paid⟩ := weighed.mark visited
        dsimp only
        split
        · exact ih (by simp only [capacity]; omega)
        · next fresh =>
          have spent : total (fun other => if other ∈ key :: seen then 0 else budget other) keys + budget key ≤
              total (fun other => if other ∈ seen then 0 else budget other) keys := total_seen_add_le member fresh
          exact ih (by simp only [capacity, total_append]; omega)
      | fail error => rfl

end Termination

end Machine
