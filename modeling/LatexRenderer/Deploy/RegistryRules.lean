import Mathlib.Logic.Relation
import LatexRenderer.Model.Deploy.RegistryRetention

/-! # What the rules of the registry keep

A version that a rule keeps is no candidate, the weekly choices have one dated tag for every week that has one, and the
digests that are protected are closed under references.
-/

namespace LatexRenderer

open Machine

variable {run : RegistryRetention}

section Tags

variable {tag : Text} {date age : Int}

theorem head_of_legacy (legacy : (parseLegacyRuntimeDateTag tag).isSome = true) : tag.head? = some 'r' := by
  unfold parseLegacyRuntimeDateTag at legacy
  dsimp only at legacy
  split at legacy
  · next shape =>
    obtain ⟨rest, rfl⟩ := shape.1
    rfl
  · cases legacy

theorem isDigit_of_date (dated : parseDateTag tag = some date) (c : Char) (first : tag.head? = some c) : c.isDigit = true := by
  unfold parseDateTag at dated
  dsimp only at dated
  split at dated
  · next shape =>
    simp only [Bool.and_eq_true] at shape
    cases tag with
    | nil => cases first
    | cons own rest =>
      cases first
      have digits := shape.1.1.1.1
      simp only [digitsOf, List.take_succ_cons, List.all_cons, Bool.and_eq_true] at digits
      exact digits.2.1
  · cases dated

theorem legacy_of_date (dated : parseDateTag tag = some date) : (parseLegacyRuntimeDateTag tag).isSome = false := by
  refine Bool.eq_false_iff.mpr fun legacy => ?_
  exact absurd (isDigit_of_date dated _ (head_of_legacy legacy)) (by decide)

theorem legacy_of_weekly {today : Int} (weekly : weeklyAge today tag = some age) :
    (parseLegacyRuntimeDateTag tag).isSome = false := by
  refine Bool.eq_false_iff.mpr fun legacy => ?_
  have first := head_of_legacy legacy
  unfold weeklyAge at weekly
  dsimp only at weekly
  split at weekly
  · next shape =>
    obtain ⟨rest, rfl⟩ := shape.1
    exact absurd first (by simp)
  · cases weekly

end Tags

section Weekly

variable {dated : List DatedVersion} {item : DatedVersion} {choices : List (Text × DatedVersion)}

/-- The dates of a week's tags that are old enough for a weekly choice. -/
def WeeklyAge (run : RegistryRetention) (date : Int) : Prop := 15 ≤ ageDays run.today date ∧ ageDays run.today date ≤ 90

/-- Every choice is of its week and old enough, and every such week so far has one. -/
structure WeeklyChosen (run : RegistryRetention) (dated : List DatedVersion) (choices : List (Text × DatedVersion)) : Prop where
  keys : (choices.map Prod.fst).Nodup
  listed : ∀ choice ∈ choices, choice.2 ∈ dated ∧ choice.1 = isoWeek choice.2.date ∧ WeeklyAge run choice.2.date
  chosen : ∀ item ∈ dated, WeeklyAge run item.date → isoWeek item.date ∈ choices.map Prod.fst

theorem WeeklyChosen.set (sound : WeeklyChosen run dated choices) (old : WeeklyAge run item.date) :
    WeeklyChosen run (dated ++ [item]) (mapSet (isoWeek item.date) item choices) where
  keys := nodup_mapSet sound.keys
  listed choice member := by
    rcases mem_mapSet member with rfl | ⟨before, -⟩
    · exact ⟨List.mem_append_right _ (List.mem_singleton_self _), rfl, old⟩
    · obtain ⟨listed, rest⟩ := sound.listed choice before
      exact ⟨List.mem_append_left _ listed, rest⟩
  chosen other member age := by
    rcases List.mem_append.mp member with before | last
    · have week := sound.chosen other before age
      rw [keys_mapSet]
      split
      · exact week
      · exact List.mem_append_left _ week
    · rw [List.mem_singleton.mp last]
      exact List.mem_map_of_mem mem_mapSet_self

theorem WeeklyChosen.keep (sound : WeeklyChosen run dated choices)
    (needless : WeeklyAge run item.date → isoWeek item.date ∈ choices.map Prod.fst) :
    WeeklyChosen run (dated ++ [item]) choices where
  keys := sound.keys
  listed choice member := by
    obtain ⟨listed, rest⟩ := sound.listed choice member
    exact ⟨List.mem_append_left _ listed, rest⟩
  chosen other member age := by
    rcases List.mem_append.mp member with before | last
    · exact sound.chosen other before age
    · rw [List.mem_singleton.mp last] at age ⊢
      exact needless age

theorem chooseWeekly_sound (run : RegistryRetention) (dated : List DatedVersion) :
    WeeklyChosen run dated (chooseWeekly run dated) := by
  unfold chooseWeekly
  induction dated using List.reverseRecOn with
  | nil => exact ⟨List.nodup_nil, by simp, by simp⟩
  | append_singleton front item ih =>
    rw [List.foldl_append, List.foldl_cons, List.foldl_nil]
    generalize List.foldl _ _ front = choices at ih ⊢
    dsimp only
    split
    · next young =>
      refine ih.keep fun old => ?_
      obtain ⟨least, most⟩ := old
      omega
    · next old =>
      have age : WeeklyAge run item.date := by
        constructor <;> omega
      split
      · next previous found =>
        split
        · exact ih.set age
        · exact ih.keep fun _ => List.mem_map_of_mem (mapGet?_mem found)
      · exact ih.set age

theorem mem_datedVersions {list : List PackageVersion} (member : item ∈ datedVersions list) :
    parseDateTag item.tag = some item.date := by
  obtain ⟨version, -, tagged⟩ := List.mem_flatMap.mp member
  obtain ⟨tag, -, dated⟩ := List.mem_filterMap.mp tagged
  obtain ⟨date, parsed, rfl⟩ := Option.map_eq_some_iff.mp dated
  exact parsed

end Weekly

section Candidates

variable {weeklyChoices : List (Text × DatedVersion)} {version : PackageVersion}

/-- Why a version is kept. -/
inductive Kept (run : RegistryRetention) (weeklyChoices : List (Text × DatedVersion)) (version : PackageVersion) : Prop
  | latest (tagged : "latest".toList ∈ version.tags)
  | recent {tag : Text} {date : Int} (tagged : tag ∈ version.tags) (dated : parseDateTag tag = some date)
      (young : ageDays run.today date ≤ 14)
  | weekly {choice : Text × DatedVersion} (chosen : choice ∈ weeklyChoices) (tagged : choice.2.tag ∈ version.tags)
  | weeklyAlias {tag : Text} {age : Int} (tagged : tag ∈ version.tags) (undated : parseDateTag tag = none)
      (weekly : weeklyAge run.today tag = some age) (young : age ≤ 90)
  | onDemand {tag : Text} {date : Int} (tagged : tag ∈ version.tags) (dated : parseDateTag tag = some date)
      (young : ∀ age, versionAgeDays run version = some age → age ≤ run.onDemandRetentionDays)
  | unknown {tag : Text} (tagged : tag ∈ version.tags) (unknown : unknownTag run tag = true)
      (other : (parseLegacyRuntimeDateTag tag).isSome = false)
  | untagged (none : version.tags = [])
      (young : ∀ age, versionAgeDays run version = some age → age ≤ run.untaggedRetentionDays)

/-- One tag that is not of a legacy Runtime and is unknown or protects decides. -/
theorem candidateKind_of_tag {selectedDates : List Text} {tag : Text} (tagged : tag ∈ version.tags)
    (other : (parseLegacyRuntimeDateTag tag).isSome = false)
    (protects : unknownTag run tag = true ∨ tag = "latest".toList ∨
      protectingTag run selectedDates (versionAgeDays run version) tag = true) :
    candidateKind run selectedDates version = none := by
  have some : version.tags ≠ [] := List.ne_nil_of_mem tagged
  have fewer : (version.tags.filter fun tag => (parseLegacyRuntimeDateTag tag).isSome).length ≠ version.tags.length := by
    intro same
    have all := List.length_filter_eq_length_iff.mp same tag tagged
    exact Bool.false_ne_true (other.symm.trans all)
  unfold candidateKind
  dsimp only
  rw [if_neg some]
  split
  · exact ite_self _
  · split
    · rfl
    · next known =>
      refine if_pos ?_
      rcases protects with unknown | rfl | protecting
      · exact absurd (List.any_eq_true.mpr ⟨tag, tagged, unknown⟩) known
      · rw [Bool.or_eq_true]
        exact .inl (List.contains_iff_mem.mpr tagged)
      · rw [Bool.or_eq_true]
        exact .inr (List.any_eq_true.mpr ⟨tag, tagged, protecting⟩)

theorem Kept.candidateKind_eq {dated : List DatedVersion} (kept : Kept run weeklyChoices version)
    (chosen : WeeklyChosen run dated weeklyChoices) (parsed : ∀ item ∈ dated, parseDateTag item.tag = some item.date) :
    candidateKind run (weeklyChoices.map fun choice => choice.2.tag) version = none := by
  cases kept with
  | latest tagged => exact candidateKind_of_tag tagged (by decide) (.inr (.inl rfl))
  | recent tagged dated young =>
    refine candidateKind_of_tag tagged (legacy_of_date dated) (.inr (.inr ?_))
    simp only [protectingTag, dated]
    simp [young]
  | weekly listed tagged =>
    obtain ⟨there, -, old, fresh⟩ := chosen.listed _ listed
    have date := parsed _ there
    refine candidateKind_of_tag tagged (legacy_of_date date) (.inr (.inr ?_))
    have selected : (weeklyChoices.map fun choice => choice.2.tag).contains _ = true :=
      List.contains_iff_mem.mpr (List.mem_map_of_mem listed)
    simp only [protectingTag, date, selected]
    simp [old, fresh]
  | weeklyAlias tagged undated weekly young =>
    refine candidateKind_of_tag tagged (legacy_of_weekly weekly) (.inr (.inr ?_))
    simp only [protectingTag, undated, weekly]
    simpa using young
  | onDemand tagged dated young =>
    refine candidateKind_of_tag tagged (legacy_of_date dated) (.inr (.inr ?_))
    simp only [protectingTag, dated]
    have recent : ((versionAgeDays run version).all fun age => decide (age ≤ run.onDemandRetentionDays)) = true := by
      rw [Option.all_eq_true]
      exact fun age same => decide_eq_true (young age same)
    rw [recent, Bool.and_true, Bool.or_eq_true, Bool.or_eq_true, decide_eq_true_eq, decide_eq_true_eq]
    omega
  | unknown tagged unknown other => exact candidateKind_of_tag tagged other (.inl unknown)
  | untagged none young =>
    have recent : ((versionAgeDays run version).all fun age => decide (age ≤ run.untaggedRetentionDays)) = true := by
      rw [Option.all_eq_true]
      exact fun age same => decide_eq_true (young age same)
    unfold candidateKind
    dsimp only
    rw [if_pos none, if_pos recent]

end Candidates

section References

variable {references : List (Text × List Text)} {digests pending protectedNames later found : List Text} {digest : Text}

/-- A version refers to another one, as its manifest tells. -/
def RefersTo (references : List (Text × List Text)) (first second : Text) : Prop := second ∈ referencesOf references first

/-- A chain of references. -/
def Reaches (references : List (Text × List Text)) : Text → Text → Prop := Relation.ReflTransGen (RefersTo references)

/-- The keys of the references that are not protected yet. -/
def unprotected (references : List (Text × List Text)) (protectedNames : List Text) : List Text :=
  (references.map Prod.fst).filter fun digest => digest ∉ protectedNames

theorem length_unprotected (known : digest ∈ references.map Prod.fst) (fresh : digest ∉ protectedNames) :
    (unprotected references (protectedNames ++ [digest])).length + 1 ≤ (unprotected references protectedNames).length := by
  have there : digest ∈ unprotected references protectedNames := List.mem_filter.mpr ⟨known, by simpa using fresh⟩
  have less : (unprotected references (protectedNames ++ [digest])).length < (unprotected references protectedNames).length := by
    have shape : unprotected references (protectedNames ++ [digest]) =
        (unprotected references protectedNames).filter fun other => other ≠ digest := by
      rw [unprotected, unprotected, List.filter_filter]
      refine List.filter_congr fun other _ => ?_
      simp [and_comm]
    rw [shape]
    exact List.length_filter_lt_length_iff_exists.mpr ⟨digest, there, by simp⟩
  omega

theorem protectReferences_eq_ok
    (success : protectReferences references digests (pending, protectedNames) = .ok (later, found)) :
    ∃ added, later = pending ++ added ∧ found = protectedNames ++ added ∧ (∀ digest ∈ digests, digest ∈ found) ∧
      added.length + (unprotected references found).length ≤ (unprotected references protectedNames).length := by
  induction digests generalizing pending protectedNames with
  | nil =>
    cases success
    exact ⟨[], (List.append_nil _).symm, (List.append_nil _).symm, by simp, by simp⟩
  | cons digest rest ih =>
    obtain ⟨known, success⟩ := demand_bind_eq_ok.mp success
    split at success
    · next already =>
      obtain ⟨added, rfl, rfl, all, fewer⟩ := ih success
      refine ⟨added, rfl, rfl, List.forall_mem_cons.mpr ⟨?_, all⟩, fewer⟩
      exact List.mem_append_left _ already
    · next fresh =>
      obtain ⟨added, rfl, rfl, all, fewer⟩ := ih success
      refine ⟨digest :: added, by simp, by simp, List.forall_mem_cons.mpr ⟨?_, all⟩, ?_⟩
      · exact List.mem_append_left _ (List.mem_append_right _ (List.mem_singleton_self _))
      · have one := length_unprotected known fresh
        rw [List.length_cons]
        omega

/-- The digests that are protected in the end are closed under references. -/
theorem protectReachable_closed {fuel : Nat}
    (success : protectReachable references fuel pending protectedNames = .ok found)
    (invariant : ∀ digest ∈ protectedNames, digest ∈ pending ∨ ∀ other, RefersTo references digest other → other ∈ protectedNames) :
    (∀ digest ∈ protectedNames, digest ∈ found) ∧
      ∀ digest ∈ found, ∀ other, RefersTo references digest other → other ∈ found := by
  induction fuel generalizing pending protectedNames with
  | zero =>
    cases pending with
    | nil =>
      cases success
      exact ⟨fun _ member => member, fun digest member => (invariant digest member).resolve_left (by simp)⟩
    | cons digest rest => cases success
  | succ fuel ih =>
    cases pending with
    | nil =>
      cases success
      exact ⟨fun _ member => member, fun digest member => (invariant digest member).resolve_left (by simp)⟩
    | cons digest rest =>
      obtain ⟨⟨later, grown⟩, step, success⟩ := bind_eq_ok.mp success
      obtain ⟨added, rfl, rfl, all, -⟩ := protectReferences_eq_ok step
      have still : ∀ other ∈ protectedNames ++ added, other ∈ rest ++ added ∨
          ∀ target, RefersTo references other target → target ∈ protectedNames ++ added := by
        intro other member
        rcases List.mem_append.mp member with before | new
        · rcases invariant other before with waiting | done
          · rcases List.mem_cons.mp waiting with rfl | later
            · exact .inr all
            · exact .inl (List.mem_append_left _ later)
          · exact .inr fun target refers => List.mem_append_left _ (done target refers)
        · exact .inl (List.mem_append_right _ new)
      obtain ⟨kept, closed⟩ := ih success still
      exact ⟨fun other member => kept other (List.mem_append_left _ member), closed⟩

theorem protectReferences_ne_exhausted (digests : List Text) (x : List Text × List Text) :
    Fails (· ≠ .exhausted) (protectReferences references digests x) := by
  induction digests generalizing x with
  | nil => exact fails_ok x
  | cons digest rest ih => exact .bind (fails_demand (by decide)) fun _ _ => ih _

/-- There are as many turns as digests can be protected. -/
theorem protectReachable_ne_exhausted {fuel : Nat}
    (enough : pending.length + (unprotected references protectedNames).length ≤ fuel) :
    Fails (· ≠ .exhausted) (protectReachable references fuel pending protectedNames) := by
  induction fuel generalizing pending protectedNames with
  | zero =>
    obtain rfl : pending = [] := List.length_eq_zero_iff.mp (by omega)
    exact fails_ok protectedNames
  | succ fuel ih =>
    cases pending with
    | nil => exact fails_ok protectedNames
    | cons digest rest =>
      refine .bind (protectReferences_ne_exhausted _ _) ?_
      rintro ⟨later, grown⟩ step
      obtain ⟨added, rfl, rfl, -, fewer⟩ := protectReferences_eq_ok step
      refine ih ?_
      show (rest ++ added).length + (unprotected references (protectedNames ++ added)).length ≤ fuel
      rw [List.length_append]
      rw [List.length_cons] at enough
      omega

/-- What is reached from a protected digest is protected. -/
theorem reaches_protected (closed : ∀ digest ∈ found, ∀ other, RefersTo references digest other → other ∈ found)
    {first second : Text} (member : first ∈ found) (reaches : Reaches references first second) : second ∈ found := by
  induction reaches with
  | refl => exact member
  | tail _ refers there => exact closed _ there _ refers

end References

end LatexRenderer
