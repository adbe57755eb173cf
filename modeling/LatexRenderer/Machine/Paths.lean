import Mathlib.Data.List.Basic

/-! # Paths as lists of segments

A path is the list of its segments from the root of the file system. `resolvePath` reads segments after a
path the way a shell does it, without looking at the disk: an empty segment and `.` stay, `..` goes up.
`descend` reads them relative to a directory and refuses to leave it, so its result does not depend on
where the directory is.
-/

namespace Machine

/-- Read one segment after a path. -/
def stepPath (path : List String) (segment : String) : List String :=
  if segment = "" ∨ segment = "." then path
  else if segment = ".." then path.dropLast
  else path ++ [segment]

/-- Read segments after a path. -/
def resolvePath (start segments : List String) : List String := segments.foldl stepPath start

/-- Read segments below a directory, as long as they do not leave it. -/
def descend : List String → List String → Option (List String)
  | below, [] => some below
  | below, segment :: rest =>
    if segment = ".." ∧ below = [] then none else descend (stepPath below segment) rest

/-- What does not leave a directory is read alike wherever the directory is. -/
theorem resolvePath_descend {root below segments target : List String}
    (stays : descend below segments = some target) :
    resolvePath (root ++ below) segments = root ++ target := by
  induction segments generalizing below with
  | nil =>
    cases stays
    rfl
  | cons segment rest ih =>
    simp only [descend] at stays
    split at stays
    · cases stays
    · next inside =>
      have same : stepPath (root ++ below) segment = root ++ stepPath below segment := by
        unfold stepPath
        split
        · rfl
        · split
          · next up =>
            exact List.dropLast_append_of_ne_nil fun empty => inside ⟨up, empty⟩
          · exact List.append_assoc root below [segment]
      show resolvePath (stepPath (root ++ below) segment) rest = _
      rw [same]
      exact ih stays

theorem resolvePath_append (start front back : List String) :
    resolvePath start (front ++ back) = resolvePath (resolvePath start front) back :=
  List.foldl_append

/-- Plain segments are read as they stand. -/
theorem resolvePath_plain {start segments : List String}
    (plain : ∀ segment ∈ segments, segment ≠ "" ∧ segment ≠ "." ∧ segment ≠ "..") :
    resolvePath start segments = start ++ segments := by
  induction segments generalizing start with
  | nil => exact (List.append_nil start).symm
  | cons segment rest ih =>
    obtain ⟨some, here, up⟩ := plain segment List.mem_cons_self
    have first : stepPath start segment = start ++ [segment] := by
      rw [stepPath, if_neg (not_or.mpr ⟨some, here⟩), if_neg up]
    have later := @ih (start ++ [segment]) fun other member => plain other (List.mem_cons_of_mem _ member)
    rw [List.append_cons, ← later, ← first]
    rfl

end Machine
