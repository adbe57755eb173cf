import Mathlib.Data.List.Induction
import Mathlib.Data.List.Nodup

/-! # Properties of objects

An object is the list of its properties in the order in which their names came. A property that is set again keeps its
place.
-/

namespace Machine

variable {κ β : Type} [DecidableEq κ]

/-- A property is set. -/
def setProperty (key : κ) (value : β) : List (κ × β) → List (κ × β)
  | [] => [(key, value)]
  | member :: rest => if member.1 = key then (key, value) :: rest else member :: setProperty key value rest

/-- A property. -/
def property? (key : κ) : List (κ × β) → Option β
  | [] => none
  | member :: rest => if member.1 = key then some member.2 else property? key rest

/-- The object whose properties are set one after another. -/
def fromEntries (entries : List (κ × β)) : List (κ × β) :=
  entries.foldl (fun members entry => setProperty entry.1 entry.2 members) []

section Properties

variable {key other : κ} {value : β} {member : κ × β} {members entries : List (κ × β)}

theorem property?_setProperty (members : List (κ × β)) :
    property? other (setProperty key value members) = if key = other then some value else property? other members := by
  induction members with
  | nil => rfl
  | cons member rest ih =>
    rw [setProperty]
    by_cases here : member.1 = key
    · rw [if_pos here, property?]
      by_cases same : key = other
      · rw [if_pos same, if_pos same]
      · rw [if_neg same, if_neg same, property?, if_neg (here ▸ same)]
    · rw [if_neg here, property?, property?, ih]
      by_cases same : key = other
      · rw [if_neg (same ▸ here), if_pos same, if_pos same]
      · rw [if_neg same, if_neg same]

theorem keys_setProperty (members : List (κ × β)) : (setProperty key value members).map Prod.fst =
    if key ∈ members.map Prod.fst then members.map Prod.fst else members.map Prod.fst ++ [key] := by
  induction members with
  | nil => rfl
  | cons member rest ih =>
    rw [setProperty]
    by_cases here : member.1 = key
    · simp [here]
    · simp only [if_neg here, List.map_cons, ih, List.mem_cons, Ne.symm here, false_or]
      split_ifs <;> rfl

theorem nodup_setProperty (nodup : (members.map Prod.fst).Nodup) :
    ((setProperty key value members).map Prod.fst).Nodup := by
  rw [keys_setProperty]
  split_ifs with absent
  · exact nodup
  · exact List.nodup_append.mpr ⟨nodup, List.nodup_singleton _, fun first there second same equal =>
      absent (List.mem_singleton.mp same ▸ equal ▸ there)⟩

/-- A property with a new name comes last. -/
theorem setProperty_of_not_mem (absent : key ∉ members.map Prod.fst) :
    setProperty key value members = members ++ [(key, value)] := by
  induction members with
  | nil => rfl
  | cons member rest ih =>
    rw [List.map_cons, List.mem_cons, not_or] at absent
    rw [setProperty, if_neg (Ne.symm absent.1), ih absent.2, List.cons_append]

theorem fromEntries_append (entries : List (κ × β)) (member : κ × β) :
    fromEntries (entries ++ [member]) = setProperty member.1 member.2 (fromEntries entries) := by
  rw [fromEntries, List.foldl_append]
  rfl

theorem nodup_fromEntries (entries : List (κ × β)) : ((fromEntries entries).map Prod.fst).Nodup := by
  induction entries using List.reverseRecOn with
  | nil => exact List.nodup_nil
  | append_singleton front member ih =>
    rw [fromEntries_append]
    exact nodup_setProperty ih

theorem mem_keys_fromEntries (entries : List (κ × β)) :
    key ∈ (fromEntries entries).map Prod.fst ↔ key ∈ entries.map Prod.fst := by
  induction entries using List.reverseRecOn with
  | nil => rfl
  | append_singleton front member ih =>
    rw [fromEntries_append, keys_setProperty, List.map_append, List.mem_append]
    split_ifs with there
    · simp only [ih, List.map_cons, List.map_nil, List.mem_singleton]
      exact ⟨.inl, fun either => either.elim id fun same => same ▸ ih.mp (same ▸ there)⟩
    · rw [List.mem_append, ih]
      rfl

/-- Entries with names of their own are the properties. -/
theorem fromEntries_of_nodup (nodup : (entries.map Prod.fst).Nodup) : fromEntries entries = entries := by
  induction entries using List.reverseRecOn with
  | nil => rfl
  | append_singleton front member ih =>
    rw [List.map_append, List.map_singleton] at nodup
    obtain ⟨front', _, apart⟩ := List.nodup_append.mp nodup
    rw [fromEntries_append, ih front', setProperty_of_not_mem fun there => apart _ there _ (List.mem_singleton_self _) rfl]

/-- Entries whose values their names determine. -/
theorem property?_fromEntries_map (keys : List κ) (values : κ → β) :
    property? key (fromEntries (keys.map fun key => (key, values key))) = if key ∈ keys then some (values key) else none := by
  induction keys using List.reverseRecOn with
  | nil => rfl
  | append_singleton front last ih =>
    rw [List.map_append, List.map_singleton, fromEntries_append, property?_setProperty, ih]
    by_cases same : last = key
    · simp [same]
    · simp [same, Ne.symm same]

/-- Entries with names of their own decide what the object has, whatever came before them. -/
theorem property?_fromEntries_cons (first : κ × β) (nodup : (entries.map Prod.fst).Nodup)
    (there : (key, value) ∈ entries) : property? key (fromEntries (first :: entries)) = some value := by
  induction entries using List.reverseRecOn with
  | nil => cases there
  | append_singleton front last ih =>
    rw [List.map_append, List.map_singleton] at nodup
    obtain ⟨front', _, apart⟩ := List.nodup_append.mp nodup
    rw [← List.cons_append, fromEntries_append, property?_setProperty]
    rcases List.mem_append.mp there with earlier | here
    · have other : last.1 ≠ key := fun same =>
        apart key (List.mem_map_of_mem (f := Prod.fst) earlier) _ (List.mem_singleton_self _) same.symm
      rw [if_neg other, ih front' earlier]
    · obtain rfl := List.mem_singleton.mp here
      exact if_pos rfl

theorem property?_map {γ : Type} (f : β → γ) (members : List (κ × β)) :
    property? key (members.map fun member => (member.1, f member.2)) = (property? key members).map f := by
  induction members with
  | nil => rfl
  | cons member rest ih =>
    rw [List.map_cons, property?, property?, ih]
    split_ifs <;> rfl

theorem property?_eq_none : property? key members = none ↔ key ∉ members.map Prod.fst := by
  induction members with
  | nil => simp [property?]
  | cons member rest ih =>
    rw [property?]
    split_ifs with here
    · simp [here]
    · rw [ih, List.map_cons, List.mem_cons, not_or]
      exact ⟨fun absent => ⟨Ne.symm here, absent⟩, And.right⟩

theorem property?_of_mem (nodup : (members.map Prod.fst).Nodup) (there : (key, value) ∈ members) :
    property? key members = some value := by
  induction members with
  | nil => cases there
  | cons member rest ih =>
    rw [List.map_cons, List.nodup_cons] at nodup
    rw [property?]
    rcases List.mem_cons.mp there with rfl | later
    · exact if_pos rfl
    · have other : member.1 ≠ key := fun same => nodup.1 (same ▸ List.mem_map_of_mem (f := Prod.fst) later)
      rw [if_neg other, ih nodup.2 later]

end Properties

end Machine
