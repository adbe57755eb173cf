import LatexRenderer.Model.Deploy.ReleaseRetention

/-! # Ledgers and trees of releases

What `validateLedger` accepts, what the writers of the ledger make of it, and when `deletionTree` accepts a
directory under another name or after a part of it is gone.
-/

namespace LatexRenderer

open Machine

section Names

theorem not_dotted {id : String} (valid : validReleaseId id = true) (mark : List Char) :
    ('.' :: mark).isPrefixOf id.toList = false := by
  unfold validReleaseId at valid
  cases chars : id.toList with
  | nil => rfl
  | cons first rest =>
    rw [chars] at valid
    simp only [validReleaseIdChars, Bool.and_eq_true] at valid
    have other : ('.' == first) = false := by
      by_contra same
      have dot : '.' = first := by simpa using same
      have letter := valid.1.1.1
      rw [← dot] at letter
      exact absurd letter (by decide)
    rw [List.isPrefixOf_cons_cons, other, Bool.false_and]

theorem not_inTrash {id : String} (valid : validReleaseId id = true) : inTrash id = false :=
  not_dotted valid _

theorem not_isStage {id : String} (valid : validReleaseId id = true) : isStage id = false :=
  not_dotted valid _

theorem trashPrefix_isPrefixOf {entry : DeletingRelease} (valid : entry.validTrash = true) :
    entry.trash.toList = trashPrefix entry.id ++ entry.trash.toList.drop (trashPrefix entry.id).length ∧
      (entry.trash.toList.drop (trashPrefix entry.id).length).length = 36 := by
  simp only [DeletingRelease.validTrash, validTrashToken, Bool.and_eq_true, beq_iff_eq] at valid
  obtain ⟨rest, same⟩ := List.isPrefixOf_iff_prefix.mp valid.1
  refine ⟨?_, valid.2.1⟩
  rw [← same, List.drop_left]

theorem inTrash_trash {entry : DeletingRelease} (valid : entry.validTrash = true) :
    inTrash entry.trash = true := by
  unfold inTrash
  rw [(trashPrefix_isPrefixOf valid).1, List.isPrefixOf_iff_prefix, trashPrefix, List.append_assoc]
  exact List.prefix_append _ _

/-- A name in the trash tells which release it belongs to. -/
theorem DeletingRelease.id_of_trash {entry other : DeletingRelease} (valid : entry.validTrash = true)
    (also : other.validTrash = true) (same : entry.trash = other.trash) : entry.id = other.id := by
  obtain ⟨first, length⟩ := trashPrefix_isPrefixOf valid
  obtain ⟨second, width⟩ := trashPrefix_isPrefixOf also
  have whole := first.symm.trans ((congrArg String.toList same).trans second)
  have fronts := (List.append_inj' whole (length.trans width.symm)).1
  unfold trashPrefix at fronts
  exact String.toList_injective (List.append_inj' (List.append_cancel_left fronts) rfl).1

theorem validTrash_trashName (id : String) (token : TrashToken) :
    (⟨id, trashName id token⟩ : DeletingRelease).validTrash = true := by
  have chars : (trashName id token).toList = trashPrefix id ++ token.text.toList := by
    simp [trashName, trashPrefix, trashMark]
  simp only [DeletingRelease.validTrash, chars, List.drop_left, Bool.and_eq_true]
  exact ⟨List.isPrefixOf_iff_prefix.mpr (List.prefix_append _ _), token.valid⟩

end Names

section Ledgers

/-- A ledger that `validateLedger` accepts. -/
structure ReleaseLedger.Valid (value : ReleaseLedger) : Prop where
  count : value.successful.length ≤ 3
  distinct : (value.successful.map VerifiedRelease.id).Nodup
  verified : ∀ entry ∈ value.successful, validReleaseId entry.id = true ∧ entry.verifiedAt ≤ maxSafeInteger
  previous : ∀ id, value.previous = some id → validReleaseId id = true
  bounded : value.deleting.length ≤ 100
  once : (value.deleting.map DeletingRelease.id).Nodup
  deleting : ∀ entry ∈ value.deleting, validReleaseId entry.id = true ∧ entry.validTrash = true

theorem validateSuccessful_ok {entries : List VerifiedRelease} :
    validateSuccessful entries = .ok () ↔
      ∀ entry ∈ entries, validReleaseId entry.id = true ∧ entry.verifiedAt ≤ maxSafeInteger := by
  induction entries with
  | nil => simp [validateSuccessful]
  | cons entry rest ih =>
    simp only [validateSuccessful, List.forall_mem_cons, ← ih]
    cases valid : validReleaseId entry.id with
    | false => simp
    | true =>
      by_cases early : entry.verifiedAt ≤ maxSafeInteger
      · simp [early, Nat.not_lt.mpr early]
      · simp [early, Nat.not_le.mp early]

theorem validateDeleting_ok {entries : List DeletingRelease} :
    validateDeleting entries = .ok () ↔
      ∀ entry ∈ entries, validReleaseId entry.id = true ∧ entry.validTrash = true := by
  induction entries with
  | nil => simp [validateDeleting]
  | cons entry rest ih =>
    simp only [validateDeleting, List.forall_mem_cons, ← ih]
    cases valid : validReleaseId entry.id with
    | false => simp
    | true => cases fits : entry.validTrash <;> simp

theorem validateLedger_ok {value accepted : ReleaseLedger} :
    validateLedger value = .ok accepted ↔ accepted = value ∧ value.Valid := by
  unfold validateLedger
  constructor
  · intro passed
    by_cases counted : 3 < value.successful.length ∨ ¬ (value.successful.map VerifiedRelease.id).Nodup
    · simp [counted, bind, Except.bind, throw, throwThe, MonadExceptOf.throw] at passed
    cases verified : validateSuccessful value.successful with
    | error error => simp [counted, verified, bind, Except.bind] at passed
    | ok done =>
      by_cases known : value.previous.any (! validReleaseId ·) = true
      · simp [counted, verified, known, bind, Except.bind, throw, throwThe,
          MonadExceptOf.throw] at passed
      by_cases once : 100 < value.deleting.length ∨ ¬ (value.deleting.map DeletingRelease.id).Nodup
      · simp [counted, verified, known, once, bind, Except.bind, throw, throwThe,
          MonadExceptOf.throw] at passed
      cases journal : validateDeleting value.deleting with
      | error error =>
        simp [counted, verified, known, once, journal, bind, Except.bind] at passed
      | ok done =>
        simp [counted, verified, known, once, journal, bind, Except.bind, pure, Except.pure] at passed
        refine ⟨passed.symm, ⟨by omega, by tauto, validateSuccessful_ok.mp verified, fun id found => ?_,
          by omega, by tauto, validateDeleting_ok.mp journal⟩⟩
        by_contra invalid
        exact known (by simp [found, invalid])
  · rintro ⟨rfl, valid⟩
    have counted : ¬ (3 < accepted.successful.length ∨
        ¬ (accepted.successful.map VerifiedRelease.id).Nodup) :=
      fun either => either.elim (fun many => absurd valid.count (by omega)) fun twice => twice valid.distinct
    have once : ¬ (100 < accepted.deleting.length ∨ ¬ (accepted.deleting.map DeletingRelease.id).Nodup) :=
      fun either => either.elim (fun many => absurd valid.bounded (by omega)) fun twice => twice valid.once
    have known : accepted.previous.any (! validReleaseId ·) = false := by
      cases found : accepted.previous with
      | none => rfl
      | some id => simp [valid.previous id found]
    simp [counted, once, known, validateSuccessful_ok.mpr valid.verified,
      validateDeleting_ok.mpr valid.deleting, bind, Except.bind, pure, Except.pure]

/-- The ledger of a host that has none. -/
def emptyLedger : ReleaseLedger := ⟨none, [], []⟩

/-- Entering a release at the front keeps the newest three. -/
def enterVerified (id : String) (now : Nat) (successful : List VerifiedRelease) : List VerifiedRelease :=
  (⟨id, now⟩ :: successful.filter fun entry => entry.id ≠ id).take 3

theorem enterVerified_valid {ledger : ReleaseLedger} {id : String} {now : Nat} (valid : ledger.Valid)
    (known : validReleaseId id = true) (early : now ≤ maxSafeInteger) :
    ({ ledger with successful := enterVerified id now ledger.successful } : ReleaseLedger).Valid := by
  have entries : ∀ entry ∈ enterVerified id now ledger.successful,
      entry = ⟨id, now⟩ ∨ entry ∈ ledger.successful := by
    intro entry member
    rcases List.mem_cons.mp (List.mem_of_mem_take member) with rfl | member
    · exact .inl rfl
    · exact .inr (List.mem_of_mem_filter member)
  refine ⟨List.length_take_le _ _, ?_, fun entry member => ?_, valid.previous, valid.bounded, valid.once,
    valid.deleting⟩
  · have front : (((⟨id, now⟩ : VerifiedRelease) ::
        ledger.successful.filter fun entry => entry.id ≠ id).map VerifiedRelease.id).Nodup := by
      refine List.nodup_cons.mpr ⟨fun member => ?_, ?_⟩
      · obtain ⟨entry, listed, same⟩ := List.mem_map.mp member
        simp only [List.mem_filter, decide_eq_true_eq] at listed
        exact listed.2 same
      · exact valid.distinct.sublist (List.Sublist.map _ List.filter_sublist)
    exact front.sublist (List.Sublist.map _ (List.take_sublist _ _))
  · rcases entries entry member with rfl | member
    · exact ⟨known, early⟩
    · exact valid.verified entry member

theorem ReleaseLedger.Valid.forget {ledger : ReleaseLedger} (valid : ledger.Valid) (id : String) :
    (ledger.forget id).Valid :=
  ⟨valid.count, valid.distinct, valid.verified, valid.previous,
    Nat.le_trans (List.length_filter_le _ _) valid.bounded,
    valid.once.sublist (List.Sublist.map _ List.filter_sublist),
    fun entry member => valid.deleting entry (List.mem_of_mem_filter member)⟩

/-- The first entry of the journal is the only one that leaves with its id. -/
theorem ReleaseLedger.forget_head {ledger : ReleaseLedger} {entry : DeletingRelease}
    {rest : List DeletingRelease} (valid : ledger.Valid) (journal : ledger.deleting = entry :: rest) :
    (ledger.forget entry.id).deleting = rest := by
  have once := valid.once
  rw [journal, List.map_cons, List.nodup_cons] at once
  unfold ReleaseLedger.forget
  simp only [journal]
  rw [List.filter_cons_of_neg (by simp), List.filter_eq_self]
  intro other member
  have apart : other.id ≠ entry.id := fun same => once.1 (same ▸ List.mem_map_of_mem member)
  simpa using apart

end Ledgers

section Trees

/-- What `walk` asks of an entry besides where a link leads. -/
structure ReleaseEntry.Plain (entry : ReleaseEntry) : Prop where
  depth : entry.path.length ≤ 128
  here : entry.mounted = false
  owned : entry.owned = true
  guarded : entry.kind = .directory → entry.writable = false
  ordinary : entry.kind ≠ .special

/-- What `deletionTree` asks of a directory besides where its links lead and what is mounted there. It does
not depend on the name of the directory, and a part of the directory has it too. -/
structure ReleaseDirectory.Removable (directory : ReleaseDirectory) : Prop where
  sealed : directory.sealed = true
  size : directory.entries.length < 200000
  plain : ∀ entry ∈ directory.entries, entry.Plain

/-- A link that does not leave its directory, under whatever name the directory lies. -/
def ReleaseEntry.Inside (entry : ReleaseEntry) : Prop :=
  ∀ target, entry.kind = .link target →
    target.absolute = false ∧ (descend entry.path.dropLast target.segments).isSome

/-- All links of a directory stay inside. -/
def ReleaseDirectory.Contained (directory : ReleaseDirectory) : Prop :=
  ∀ entry ∈ directory.entries, entry.Inside

theorem ReleaseEntry.plain_of_check {path : List String} {entry : ReleaseEntry}
    (shallow : entry.path.length ≤ 128) (passed : entry.check path = .ok ()) : entry.Plain := by
  unfold ReleaseEntry.check at passed
  split at passed
  · cases passed
  · next own =>
    simp only [not_or, Bool.not_eq_true, Bool.not_eq_false] at own
    refine ⟨shallow, own.1, own.2, fun same => ?_, fun same => ?_⟩
    · rw [same] at passed
      by_contra writable
      simp [writable] at passed
    · rw [same] at passed
      cases passed

theorem ReleaseEntry.Plain.check {path : List String} {entry : ReleaseEntry} (plain : entry.Plain)
    (inside : entry.Inside) : entry.check path = .ok () := by
  unfold ReleaseEntry.check
  rw [if_neg (by simp [plain.here, plain.owned])]
  cases same : entry.kind with
  | file => rfl
  | directory => simp [plain.guarded same]
  | special => exact absurd same plain.ordinary
  | link target =>
    obtain ⟨relative, stays⟩ := inside target same
    obtain ⟨below, found⟩ := Option.isSome_iff_exists.mp stays
    have leads : target.destination path entry.path = path ++ below := by
      unfold LinkTarget.destination
      rw [relative]
      exact resolvePath_descend found
    simp [leads]

theorem walkRelease_plain {path : List String} {count : Nat} {entries : List ReleaseEntry}
    (passed : walkRelease path count entries = .ok ()) :
    (entries = [] ∨ count + entries.length ≤ 200000) ∧ ∀ entry ∈ entries, entry.Plain := by
  induction entries generalizing count with
  | nil => simp
  | cons entry rest ih =>
    unfold walkRelease at passed
    split at passed
    · cases passed
    · next bounded =>
      cases checked : entry.check path with
      | error error => simp [checked, bind, Except.bind] at passed
      | ok done =>
        simp only [checked, bind, Except.bind] at passed
        obtain ⟨counted, plain⟩ := ih passed
        refine ⟨.inr ?_, fun other member => ?_⟩
        · rcases counted with rfl | counted
          · simp only [List.length_cons, List.length_nil]
            omega
          · simp only [List.length_cons]
            omega
        · rcases List.mem_cons.mp member with rfl | member
          · exact ReleaseEntry.plain_of_check (by omega) checked
          · exact plain other member

theorem walkRelease_ok {path : List String} {count : Nat} {entries : List ReleaseEntry}
    (size : count + entries.length ≤ 200000) (plain : ∀ entry ∈ entries, entry.Plain)
    (inside : ∀ entry ∈ entries, entry.Inside) : walkRelease path count entries = .ok () := by
  induction entries generalizing count with
  | nil => rfl
  | cons entry rest ih =>
    have first := plain entry List.mem_cons_self
    simp only [List.length_cons] at size
    unfold walkRelease
    rw [if_neg (by have := first.depth; omega), first.check (inside entry List.mem_cons_self)]
    exact ih (by omega) (fun other member => plain other (List.mem_cons_of_mem _ member))
      fun other member => inside other (List.mem_cons_of_mem _ member)

theorem ReleaseDirectory.removable_of_deletionTree {path : List String} {mounts : List (List String)}
    {directory : ReleaseDirectory} (passed : deletionTree path mounts directory = .ok ()) :
    directory.Removable := by
  unfold deletionTree at passed
  split at passed
  · cases passed
  · next sealed =>
    split at passed
    · cases passed
    · obtain ⟨counted, plain⟩ := walkRelease_plain passed
      refine ⟨by simpa using sealed, ?_, plain⟩
      rcases counted with empty | counted
      · simp [empty]
      · omega

/-- A directory whose links stay inside is accepted under every name. -/
theorem ReleaseDirectory.Removable.deletionTree {path : List String} {mounts : List (List String)}
    {directory : ReleaseDirectory} (removable : directory.Removable) (contained : directory.Contained)
    (unmounted : ∀ mount ∈ mounts, ¬ path <+: mount) : deletionTree path mounts directory = .ok () := by
  unfold LatexRenderer.deletionTree
  have free : mounts.any (path.isPrefixOf ·) = false := by
    simpa using unmounted
  rw [if_neg (by simp [removable.sealed]), free]
  exact walkRelease_ok (by have := removable.size; omega) removable.plain contained

theorem ReleaseDirectory.Removable.leave {directory : ReleaseDirectory} (removable : directory.Removable)
    (left : List (List String)) : (directory.leave left).Removable :=
  ⟨removable.sealed, Nat.lt_of_le_of_lt (List.length_filter_le _ _) removable.size,
    fun entry member => removable.plain entry (List.mem_of_mem_filter member)⟩

end Trees

end LatexRenderer
