import Mathlib.Data.List.Nodup
import LatexRenderer.Model.Deploy.LanAddress

/-! # Maps keyed by texts

A `Map` of the source is the list of its entries in the order in which its keys came.
-/

namespace LatexRenderer

/-- `Map.prototype.set`: a key that is there keeps its place. -/
def mapSet {β : Type} (key : Text) (value : β) (entries : List (Text × β)) : List (Text × β) :=
  if key ∈ entries.map Prod.fst then entries.map fun entry => if entry.1 = key then (key, value) else entry
  else entries ++ [(key, value)]

def mapGet? {β : Type} (key : Text) (entries : List (Text × β)) : Option β :=
  (entries.find? fun entry => decide (entry.1 = key)).map Prod.snd

def mapDelete {β : Type} (key : Text) (entries : List (Text × β)) : List (Text × β) :=
  entries.filter fun entry => decide (entry.1 ≠ key)

section Maps

variable {β : Type} {key : Text} {value : β} {entry : Text × β} {entries : List (Text × β)}

theorem mem_mapSet (member : entry ∈ mapSet key value entries) :
    entry = (key, value) ∨ entry ∈ entries ∧ entry.1 ≠ key := by
  unfold mapSet at member
  split at member
  · obtain ⟨old, there, rfl⟩ := List.mem_map.mp member
    split
    · exact .inl rfl
    · next other => exact .inr ⟨there, other⟩
  · next absent =>
    rcases List.mem_append.mp member with there | same
    · exact .inr ⟨there, fun same => absent (same ▸ List.mem_map_of_mem there)⟩
    · exact .inl (List.mem_singleton.mp same)

theorem keys_mapSet : (mapSet key value entries).map Prod.fst =
    if key ∈ entries.map Prod.fst then entries.map Prod.fst else entries.map Prod.fst ++ [key] := by
  unfold mapSet
  split
  · rw [List.map_map]
    refine List.map_congr_left fun old _ => ?_
    show (if old.1 = key then (key, value) else old).1 = old.1
    split
    · next same => exact same.symm
    · rfl
  · simp

theorem nodup_mapSet (nodup : (entries.map Prod.fst).Nodup) : ((mapSet key value entries).map Prod.fst).Nodup := by
  rw [keys_mapSet]
  split
  · exact nodup
  · next absent => exact List.nodup_append.mpr ⟨nodup, List.nodup_singleton _, fun a member b same => by
      obtain rfl := List.mem_singleton.mp same
      exact fun equal => absent (equal ▸ member)⟩

theorem length_mapSet_le : (mapSet key value entries).length ≤ entries.length + 1 := by
  unfold mapSet
  split <;> simp

theorem mapGet?_mem (found : mapGet? key entries = some value) : (key, value) ∈ entries := by
  obtain ⟨⟨name, other⟩, here, rfl⟩ := Option.map_eq_some_iff.mp found
  obtain rfl : name = key := by simpa using List.find?_some here
  exact List.mem_of_find?_eq_some here

theorem mapGet?_none (absent : mapGet? key entries = none) : key ∉ entries.map Prod.fst := by
  rw [mapGet?, Option.map_eq_none_iff, List.find?_eq_none] at absent
  intro member
  obtain ⟨old, there, rfl⟩ := List.mem_map.mp member
  exact absent old there (decide_eq_true rfl)

/-- A map has one value for a key. -/
theorem value_unique {other : β} (nodup : (entries.map Prod.fst).Nodup) (first : (key, value) ∈ entries)
    (second : (key, other) ∈ entries) : value = other :=
  congrArg Prod.snd (List.inj_on_of_nodup_map nodup first second rfl)

theorem mapGet?_of_mem (nodup : (entries.map Prod.fst).Nodup) (member : (key, value) ∈ entries) :
    mapGet? key entries = some value := by
  cases found : mapGet? key entries with
  | none => exact absurd (List.mem_map_of_mem member) (mapGet?_none found)
  | some other => rw [value_unique nodup (mapGet?_mem found) member]

theorem mem_mapSet_of_ne (member : entry ∈ entries) (other : entry.1 ≠ key) : entry ∈ mapSet key value entries := by
  unfold mapSet
  split
  · exact List.mem_map.mpr ⟨entry, member, if_neg other⟩
  · exact List.mem_append_left _ member

theorem mem_mapSet_self : (key, value) ∈ mapSet key value entries := by
  unfold mapSet
  split
  · next member =>
    obtain ⟨old, there, same⟩ := List.mem_map.mp member
    exact List.mem_map.mpr ⟨old, there, if_pos same⟩
  · exact List.mem_append_right _ (List.mem_singleton_self _)

theorem mapGet?_mapSet_self (nodup : (entries.map Prod.fst).Nodup) : mapGet? key (mapSet key value entries) = some value :=
  mapGet?_of_mem (nodup_mapSet nodup) mem_mapSet_self

/-- A change of all values goes through a map. -/
theorem mapGet?_map {γ : Type} (f : β → γ) (key : Text) (entries : List (Text × β)) :
    mapGet? key (entries.map fun entry => (entry.1, f entry.2)) = (mapGet? key entries).map f := by
  unfold mapGet?
  rw [List.find?_map, Option.map_map, Option.map_map]
  rfl

theorem mapSet_map {γ : Type} (f : β → γ) (key : Text) (value : β) (entries : List (Text × β)) :
    mapSet key (f value) (entries.map fun entry => (entry.1, f entry.2)) =
      (mapSet key value entries).map fun entry => (entry.1, f entry.2) := by
  have keys : (entries.map fun entry => (entry.1, f entry.2)).map Prod.fst = entries.map Prod.fst := by
    rw [List.map_map]
    rfl
  unfold mapSet
  rw [keys]
  split
  · rw [List.map_map, List.map_map]
    refine List.map_congr_left fun entry _ => ?_
    show (if entry.1 = key then (key, f value) else (entry.1, f entry.2)) = _
    rw [Function.comp_apply]
    split <;> rfl
  · rw [List.map_append]
    rfl

/-- Entries with new keys are appended one after another. -/
theorem foldl_mapSet {later : List (Text × β)} (nodup : ((entries ++ later).map Prod.fst).Nodup) :
    later.foldl (fun whole entry => mapSet entry.1 entry.2 whole) entries = entries ++ later := by
  induction later generalizing entries with
  | nil => exact (List.append_nil entries).symm
  | cons entry rest ih =>
    have absent : entry.1 ∉ entries.map Prod.fst := by
      rw [List.map_append, List.map_cons] at nodup
      exact fun member => (List.nodup_append.mp nodup).2.2 _ member _ List.mem_cons_self rfl
    have shape : entries ++ entry :: rest = (entries ++ [entry]) ++ rest := by simp
    rw [shape] at nodup ⊢
    rw [List.foldl_cons, mapSet, if_neg absent]
    exact ih nodup

theorem mem_mapDelete : entry ∈ mapDelete key entries ↔ entry ∈ entries ∧ entry.1 ≠ key := by
  rw [mapDelete, List.mem_filter, decide_eq_true_eq]

end Maps

end LatexRenderer
