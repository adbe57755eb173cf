import Mathlib.Data.List.Basic

/-! # Blocks stored under their offsets

A sequence is written in blocks, each stored under its offset. `Chain` says that blocks follow on from
one another without a gap, and a `Cursor` reads a store block by block, each time from the offset where
the last one ended. Over any store that holds a chain, the cursor collects the chain's contents in order,
however the reads are spread over time, and `assemble` reads them all.
-/

namespace Machine

universe u

variable {α : Type u}

/-- Blocks that follow on from one another, from one offset to another. -/
def Chain (start : ℕ) : List (ℕ × List α) → ℕ → Prop
  | [], stop => start = stop
  | (offset, content) :: rest, stop =>
    offset = start ∧ content ≠ [] ∧ Chain (start + content.length) rest stop

/-- The contents of blocks, one after the other. -/
def contents (blocks : List (ℕ × List α)) : List α :=
  blocks.flatMap Prod.snd

@[simp] theorem contents_nil : contents ([] : List (ℕ × List α)) = [] := rfl

@[simp] theorem contents_cons (block : ℕ × List α) (blocks : List (ℕ × List α)) :
    contents (block :: blocks) = block.2 ++ contents blocks := by
  simp [contents]

@[simp] theorem contents_append (first second : List (ℕ × List α)) :
    contents (first ++ second) = contents first ++ contents second := by
  simp [contents]

namespace Chain

variable {start mid stop : ℕ} {blocks more : List (ℕ × List α)}

/-- Chains compose at their shared offset. -/
theorem append (first : Chain start blocks mid) (second : Chain mid more stop) :
    Chain start (blocks ++ more) stop := by
  induction blocks generalizing start with
  | nil =>
    cases first
    exact second
  | cons block blocks ih =>
    obtain ⟨here, content, rest⟩ := first
    exact ⟨here, content, ih rest⟩

/-- A chain that goes on from its end. -/
theorem snoc (chain : Chain start blocks mid) {content : List α} (content_ne : content ≠ []) :
    Chain start (blocks ++ [(mid, content)]) (mid + content.length) :=
  chain.append ⟨rfl, content_ne, rfl⟩

/-- A chain is as long as its contents. -/
theorem length (chain : Chain start blocks stop) : stop = start + (contents blocks).length := by
  induction blocks generalizing start with
  | nil =>
    cases chain
    simp
  | cons block blocks ih =>
    obtain ⟨_, _, rest⟩ := chain
    have tail := ih rest
    simp only [contents_cons, List.length_append]
    omega

/-- A chain of no length has no block. -/
theorem eq_nil (chain : Chain start blocks start) : blocks = [] := by
  cases blocks with
  | nil => rfl
  | cons block blocks =>
    obtain ⟨_, content, rest⟩ := chain
    have tail := rest.length
    have positive := List.length_pos_iff.mpr content
    omega

/-- No block reaches beyond the end of its chain. -/
theorem end_le (chain : Chain start blocks stop) {block : ℕ × List α} (member : block ∈ blocks) :
    block.1 + block.2.length ≤ stop := by
  induction blocks generalizing start with
  | nil => cases member
  | cons first blocks ih =>
    obtain ⟨here, _, rest⟩ := chain
    rcases List.mem_cons.mp member with rfl | later
    · have tail := rest.length
      omega
    · exact ih rest later

/-- A chain can be cut behind any of its blocks. -/
theorem split (chain : Chain start (blocks ++ more) stop) :
    ∃ mid, Chain start blocks mid ∧ Chain mid more stop := by
  induction blocks generalizing start with
  | nil => exact ⟨start, rfl, chain⟩
  | cons block blocks ih =>
    obtain ⟨here, content, rest⟩ := chain
    obtain ⟨mid, first, second⟩ := ih rest
    exact ⟨mid, ⟨here, content, first⟩, second⟩

/-- The rest of a chain goes on where a first part of it ended. -/
theorem rest (chain : Chain start (blocks ++ more) stop) (first : Chain start blocks mid) :
    Chain mid more stop := by
  obtain ⟨cut, before, after⟩ := chain.split
  have same : cut = mid := before.length.trans first.length.symm
  exact same ▸ after

end Chain

/-- How far a store was read, and what was read. -/
structure Cursor (α : Type u) where
  offset : ℕ := 0
  output : List α := []

namespace Cursor

/-- Read the block at the offset and go on behind it; `none` when there is no block or it is not
admissible. -/
def advance (store : ℕ → Option (List α)) (admissible : ℕ → List α → Bool) (cursor : Cursor α) :
    Option (Cursor α) :=
  (store cursor.offset).bind fun content =>
    if content.isEmpty || !admissible cursor.offset content then none
    else some ⟨cursor.offset + content.length, cursor.output ++ content⟩

variable {store : ℕ → Option (List α)} {admissible : ℕ → List α → Bool} {cursor next : Cursor α}
  {blocks : List (ℕ × List α)} {size : ℕ}

theorem advance_eq_some (read : cursor.advance store admissible = some next) :
    ∃ content, store cursor.offset = some content ∧ content ≠ [] ∧
      admissible cursor.offset content = true ∧
      next = ⟨cursor.offset + content.length, cursor.output ++ content⟩ := by
  obtain ⟨content, found, read⟩ := Option.bind_eq_some_iff.mp read
  obtain ⟨guarded, eq⟩ := (Option.ite_none_left_eq_some ..).mp read
  simp only [Bool.or_eq_true, List.isEmpty_iff, Bool.not_eq_true', not_or, Bool.not_eq_false] at guarded
  exact ⟨content, found, guarded.1, guarded.2, (Option.some.inj eq).symm⟩

/-- A read moves on. -/
theorem advance_lt (read : cursor.advance store admissible = some next) :
    cursor.offset < next.offset := by
  obtain ⟨content, _, content_ne, _, rfl⟩ := advance_eq_some read
  have positive := List.length_pos_iff.mpr content_ne
  show cursor.offset < cursor.offset + content.length
  omega

/-- Read up to a size. -/
def assemble (store : ℕ → Option (List α)) (admissible : ℕ → List α → Bool) (size : ℕ)
    (cursor : Cursor α) : Option (List α) :=
  if cursor.offset < size then
    match _read : cursor.advance store admissible with
    | none => none
    | some next => assemble store admissible size next
  else some cursor.output
termination_by size - cursor.offset
decreasing_by
  have later := advance_lt ‹_›
  omega

/-- The cursor has read the first blocks of the chain. -/
def Follows (blocks : List (ℕ × List α)) (cursor : Cursor α) : Prop :=
  ∃ done rest, blocks = done ++ rest ∧ Chain 0 done cursor.offset ∧ cursor.output = contents done

theorem Follows.start (blocks : List (ℕ × List α)) : Follows blocks ({} : Cursor α) :=
  ⟨[], blocks, rfl, rfl, rfl⟩

/-- A cursor at the end of a chain has read all of it. -/
theorem Follows.complete (follows : Follows blocks cursor) (chain : Chain 0 blocks size)
    (finished : size ≤ cursor.offset) : cursor.offset = size ∧ cursor.output = contents blocks := by
  obtain ⟨done, rest, rfl, first, read⟩ := follows
  have ahead := chain.rest first
  have length := ahead.length
  have here : cursor.offset = size := by omega
  have none : rest = [] := (here ▸ ahead).eq_nil
  exact ⟨here, by rw [none, List.append_nil, read]⟩

/-- The next block of a followed chain is the one under the cursor. -/
private theorem Follows.ahead (follows : Follows blocks cursor) (chain : Chain 0 blocks size)
    (unfinished : cursor.offset < size) :
    ∃ content, (cursor.offset, content) ∈ blocks ∧ content ≠ [] ∧
      Follows blocks ⟨cursor.offset + content.length, cursor.output ++ content⟩ := by
  obtain ⟨done, rest, rfl, first, read⟩ := follows
  have ahead := chain.rest first
  cases rest with
  | nil =>
    cases ahead
    omega
  | cons block rest =>
    obtain ⟨offset, content⟩ := block
    obtain ⟨rfl, content_ne, _⟩ := ahead
    refine ⟨content, by simp, content_ne, done ++ [(cursor.offset, content)], rest, by simp,
      first.snoc content_ne, ?_⟩
    simp [read]

/-- Over a store that holds the chain, a read goes on following it. -/
theorem Follows.advance (follows : Follows blocks cursor) (chain : Chain 0 blocks size)
    (stored : ∀ block ∈ blocks, store block.1 = some block.2) (unfinished : cursor.offset < size)
    (read : cursor.advance store admissible = some next) : Follows blocks next := by
  obtain ⟨content, member, _, goesOn⟩ := follows.ahead chain unfinished
  obtain ⟨found, present, _, _, rfl⟩ := advance_eq_some read
  have same : content = found := Option.some.inj ((stored _ member).symm.trans present)
  exact same ▸ goesOn

/-- Over a store that holds an admissible chain, an unfinished cursor can read on. -/
theorem Follows.exists_advance (follows : Follows blocks cursor) (chain : Chain 0 blocks size)
    (stored : ∀ block ∈ blocks, store block.1 = some block.2)
    (admitted : ∀ block ∈ blocks, admissible block.1 block.2 = true)
    (unfinished : cursor.offset < size) : ∃ next, cursor.advance store admissible = some next := by
  obtain ⟨content, member, content_ne, _⟩ := follows.ahead chain unfinished
  have present := stored _ member
  have admits := admitted _ member
  simp only at present admits
  refine ⟨⟨cursor.offset + content.length, cursor.output ++ content⟩, ?_⟩
  simp [Cursor.advance, present, admits, content_ne]

/-- Over a store that holds an admissible chain, reading up to its end gives the chain's contents. -/
theorem Follows.assemble (follows : Follows blocks cursor) (chain : Chain 0 blocks size)
    (stored : ∀ block ∈ blocks, store block.1 = some block.2)
    (admitted : ∀ block ∈ blocks, admissible block.1 block.2 = true) :
    cursor.assemble store admissible size = some (contents blocks) := by
  fun_induction Cursor.assemble store admissible size cursor with
  | case1 cursor unfinished none =>
    obtain ⟨next, read⟩ := follows.exists_advance chain stored admitted unfinished
    cases none.symm.trans read
  | case2 cursor unfinished next read ih =>
    exact ih (follows.advance chain stored unfinished read)
  | case3 cursor finished =>
    rw [(follows.complete chain (Nat.le_of_not_lt finished)).2]

end Cursor

end Machine
