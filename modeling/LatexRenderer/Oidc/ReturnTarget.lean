import Mathlib.Data.List.TakeWhile
import LatexRenderer.Model.Oidc.LoginFlows

/-! # Whether a login returns to the site

The checks look at the value as it stands, and the result is what is left after dot segments are taken away. A value
such as `/.//host` passes the checks and comes out as `//host`, which a browser takes for another host.
-/

namespace LatexRenderer

open Machine

variable {value : Text} {target : UrlTarget}

/-- The text is a path of the site that every base resolves on its own origin, and it is a fixed point. -/
structure StaysOnSite (text : Text) : Prop where
  slash : ∃ rest, text = '/' :: rest ∧ rest.head? ≠ some '/'
  resolved : ∀ (ω : Type) (elsewhere : ω → List Char → Option (Url ω)) (base : ω),
    ∃ target, resolveUrl elsewhere base text = some { origin := base, target }
  again : safeReturnTo text = text

/-- Where the value points to, as a URL. -/
def returnTarget (value : Text) : UrlTarget := parseTarget (urlTrim value).tail

/-- The segments of the path, as the value has them. -/
def returnSegments (value : Text) : List Text := (cut '?' (cut '#' (urlTrim value).tail).1).1.splitOn '/'

/-- Once dot segments are gone, the path does not begin with an empty segment that others follow, and percent-encoded
the whole is not too long. -/
def Unambiguous (value : Text) : Prop :=
  (∀ next rest, addSegments [] (returnSegments value) ≠ [] :: next :: rest) ∧ (returnTarget value).text.length ≤ 2048

section Values

/-- A value that is not refused. -/
structure AcceptedReturn (value : Text) : Prop where
  short : utf16Length value ≤ 2048
  begins : ∃ rest, value = '/' :: rest ∧ rest.head? ≠ some '/'
  backslash : '\\' ∉ value
  control : hasControlCharacters value = false

theorem accepted_iff : refusesReturnTo value = false ↔ AcceptedReturn value := by
  have first : (['/'].isPrefixOf value = true ∧ ['/', '/'].isPrefixOf value = false) ↔
      ∃ rest, value = '/' :: rest ∧ rest.head? ≠ some '/' := by
    have turned : ∀ c : Char, ('/' == c) = decide (c = '/') := fun c => by
      by_cases same : c = '/'
      · simp [same]
      · simp [same, Ne.symm same]
    rcases value with _ | ⟨c, _ | ⟨d, rest⟩⟩
    · simp
    · simp [List.isPrefixOf, turned]
    · simp only [List.isPrefixOf, turned, Bool.and_true, decide_eq_true_eq]
      by_cases slash : c = '/' <;> by_cases second : d = '/' <;> simp [slash, second]
  simp only [refusesReturnTo, Bool.or_eq_false_iff, decide_eq_false_iff_not, Bool.not_eq_false', not_lt]
  constructor
  · rintro ⟨⟨⟨⟨short, begins⟩, single⟩, backslash⟩, control⟩
    exact ⟨short, first.mp ⟨begins, single⟩, backslash, control⟩
  · rintro ⟨short, begins, backslash, control⟩
    obtain ⟨begins, single⟩ := first.mpr begins
    exact ⟨⟨⟨⟨short, begins⟩, single⟩, backslash⟩, control⟩

theorem filter_tabs_fixed {text : List Char} (plain : ∀ c ∈ text, 0x1f < c.toNat) :
    text.filter (fun c => c ∉ ['\t', '\n', '\r']) = text := by
  refine List.filter_eq_self.mpr fun c member => decide_eq_true fun tab => ?_
  have large := plain c member
  simp only [List.mem_cons, List.not_mem_nil, or_false] at tab
  rcases tab with rfl | rfl | rfl <;> simp at large

/-- Taking white space off leaves a value that is not refused beginning with one slash. -/
theorem AcceptedReturn.trim (accepted : AcceptedReturn value) : ∃ rest, urlTrim value = '/' :: rest ∧
    rest.head? ≠ some '/' ∧ rest.head? ≠ some '\\' ∧ ∀ c ∈ rest, c ∈ value := by
  obtain ⟨rest, rfl, single⟩ := accepted.begins
  have plain : ∀ c ∈ '/' :: rest, 0x1f < c.toNat := by
    intro c member
    have fine := List.any_eq_false.mp accepted.control c member
    simp only [Bool.or_eq_true, decide_eq_true_eq, not_or] at fine
    omega
  have front : ('/' :: rest).dropWhile urlSpace = '/' :: rest := rfl
  obtain ⟨back, whole⟩ : ∃ back, (('/' :: rest).reverse.dropWhile urlSpace).reverse ++ back = '/' :: rest := by
    refine ⟨(('/' :: rest).reverse.takeWhile urlSpace).reverse, ?_⟩
    rw [← List.reverse_append, List.takeWhile_append_dropWhile, List.reverse_reverse]
  cases kept : (('/' :: rest).reverse.dropWhile urlSpace).reverse with
  | nil =>
    have none := List.dropWhile_eq_nil_iff.mp (List.reverse_eq_nil_iff.mp kept) '/' (by simp)
    exact absurd none (by decide)
  | cons c trimmed =>
    rw [kept, List.cons_append] at whole
    obtain ⟨rfl, parts⟩ := List.cons.inj whole
    have inside : ∀ c ∈ trimmed, c ∈ rest := fun c member => parts ▸ List.mem_append_left back member
    have filtered : urlTrim ('/' :: rest) = '/' :: trimmed := by
      rw [urlTrim, front, kept]
      refine filter_tabs_fixed fun c member => plain c ?_
      rcases List.mem_cons.mp member with rfl | later
      · exact List.mem_cons_self
      · exact List.mem_cons_of_mem _ (inside c later)
    refine ⟨trimmed, filtered, ?_, ?_, fun c member => List.mem_cons_of_mem _ (inside c member)⟩
    · cases trimmed with
      | nil => simp
      | cons d others =>
        rw [← parts] at single
        simpa using single
    · cases trimmed with
      | nil => simp
      | cons d others =>
        intro same
        obtain rfl := Option.some.inj same
        exact accepted.backslash (List.mem_cons_of_mem _ (inside _ List.mem_cons_self))

/-- What is returned for a value that is not refused. -/
theorem AcceptedReturn.safeReturnTo_eq (accepted : AcceptedReturn value) : safeReturnTo value = (returnTarget value).text := by
  obtain ⟨rest, trimmed, single, noBackslash, _⟩ := accepted.trim
  have resolved : resolveUrl (fun _ _ => none) returnInvalid value =
      some { origin := returnInvalid, target := parseTarget rest } := by
    rw [resolveUrl, trimmed]
    exact if_neg (not_or.mpr ⟨single, noBackslash⟩)
  rw [safeReturnTo, accepted_iff.mpr accepted, resolved, returnTarget, trimmed]
  rfl

end Values

section Targets

theorem mem_cut {mark c : Char} {text : List Char} :
    (c ∈ (cut mark text).1 → c ∈ text) ∧ ∀ back, (cut mark text).2 = some back → c ∈ back → c ∈ text := by
  induction text with
  | nil => exact ⟨id, fun _ never => by cases never⟩
  | cons first rest ih =>
    rw [cut]
    split
    · exact ⟨fun never => (by cases never), fun back same member => by cases same; exact List.mem_cons_of_mem _ member⟩
    · refine ⟨fun member => ?_, fun back same member => List.mem_cons_of_mem _ (ih.2 back same member)⟩
      rcases List.mem_cons.mp member with rfl | later
      · exact List.mem_cons_self
      · exact List.mem_cons_of_mem _ (ih.1 later)

theorem AcceptedReturn.path_eq (accepted : AcceptedReturn value) :
    (returnTarget value).path = (addSegments [] (returnSegments value)).map (percentEncode pathSet) := by
  obtain ⟨rest, trimmed, _, _, inside⟩ := accepted.trim
  have absent : '\\' ∉ (cut '?' (cut '#' rest).1).1 := fun member =>
    accepted.backslash (inside _ (mem_cut.1 (mem_cut.1 member)))
  have same : (cut '?' (cut '#' rest).1).1.map (fun c => if c = '\\' then '/' else c) = (cut '?' (cut '#' rest).1).1 :=
    by
    refine (List.map_congr_left (g := id) fun c member => ?_).trans (List.map_id _)
    exact if_neg fun slash : c = '\\' => absent (slash ▸ member)
  rw [returnTarget, returnSegments, trimmed, ← addSegments_percentEncode]
  exact congrArg (fun text => addSegments [] ((text.splitOn '/').map (percentEncode pathSet))) same

theorem AcceptedReturn.path_begins_iff (accepted : AcceptedReturn value) :
    (∃ next rest, (returnTarget value).path = [] :: next :: rest) ↔
      ∃ next rest, addSegments [] (returnSegments value) = [] :: next :: rest := by
  rw [accepted.path_eq]
  rcases addSegments [] (returnSegments value) with _ | ⟨first, _ | ⟨next, rest⟩⟩
  · simp
  · simp
  · simp [percentEncode_eq_nil]

/-- The text has neither white space, nor control characters, nor characters outside ASCII. -/
theorem text_ascii (clean : CleanTarget target) {c : Char} (member : c ∈ target.text) :
    0x20 < c.toNat ∧ c.toNat ≤ 0x7e := by
  have plain : ∀ {set : Char → Bool}, (∀ c, c0ControlSet c = true → set c = true) → set ' ' = true →
      set c = false → 0x20 < c.toNat ∧ c.toNat ≤ 0x7e := by
    intro set control space free
    have uncontrolled : c0ControlSet c = false := Bool.eq_false_iff.mpr fun holds => by
      rw [control c holds] at free
      cases free
    have other : c ≠ ' ' := by
      rintro rfl
      rw [space] at free
      cases free
    have code : c.toNat ≠ 0x20 := fun same => other (Char.ext (UInt32.toNat_inj.mp same))
    simp only [c0ControlSet, Bool.or_eq_false_iff, decide_eq_false_iff_not] at uncontrolled
    omega
  rw [text_eq clean, UrlTarget.rest] at member
  rcases List.mem_cons.mp member with rfl | inside
  · decide
  rcases List.mem_append.mp inside with inside | inside
  rcases List.mem_append.mp inside with inside | inside
  · rcases pathSet_of_mem_path clean inside with rfl | ⟨free, _⟩
    · decide
    · exact plain (fun c control => by simp [pathSet, querySet, control]) (by decide) free
  · rcases mem_marked inside with rfl | ⟨part, query, inside⟩
    · decide
    · exact plain (fun c control => by simp [specialQuerySet, querySet, control]) (by decide)
        (clean.query part query c inside)
  · rcases mem_marked inside with rfl | ⟨part, fragment, inside⟩
    · decide
    · exact plain (fun c control => by simp [fragmentSet, control]) (by decide) (clean.fragment part fragment c inside)

theorem text_backslash {source : List Char} (absent : '\\' ∉ source) : '\\' ∉ (parseTarget source).text := by
  intro member
  have clean := parseTarget_clean source
  rw [text_eq clean, UrlTarget.rest] at member
  rcases List.mem_cons.mp member with never | inside
  · exact absurd never (by decide)
  rcases List.mem_append.mp inside with inside | inside
  rcases List.mem_append.mp inside with inside | inside
  · rcases pathSet_of_mem_path clean inside with never | ⟨_, other⟩
    · exact absurd never (by decide)
    · exact other rfl
  · rcases mem_marked inside with never | ⟨part, query, inside⟩
    · exact absurd never (by decide)
    · obtain ⟨raw, read, rfl⟩ := Option.map_eq_some_iff.mp query
      exact not_mem_percentEncode (fun there => absent (mem_cut.1 (mem_cut.2 raw read there))) (by decide) (by decide)
        inside
  · rcases mem_marked inside with never | ⟨part, fragment, inside⟩
    · exact absurd never (by decide)
    · obtain ⟨raw, read, rfl⟩ := Option.map_eq_some_iff.mp fragment
      exact not_mem_percentEncode (fun there => absent (mem_cut.2 raw read there)) (by decide) (by decide) inside

/-- Two slashes begin the text just when the path begins with an empty segment that others follow. -/
theorem rest_head_iff (clean : CleanTarget target) :
    target.rest.head? = some '/' ↔ ∃ next rest, target.path = [] :: next :: rest := by
  have noMark : ∀ (mark : Char) (part : Option (List Char)), mark ≠ '/' → (marked mark part).head? ≠ some '/' := by
    intro mark part other
    cases part with
    | none => simp [marked]
    | some part =>
      rw [marked]
      split
      · simp
      · simpa using other
  have noTail : (target.search ++ target.hash).head? ≠ some '/' := by
    rw [List.head?_append]
    cases head : target.search.head? with
    | none => exact noMark '#' target.fragment (by decide)
    | some c =>
      intro same
      exact noMark '?' target.query (by decide) (head.trans same)
  rw [UrlTarget.rest, List.append_assoc]
  cases shape : target.path with
  | nil => exact absurd shape clean.nonempty
  | cons first rest =>
    cases first with
    | cons c inner =>
      have segment := clean.path (c :: inner) (shape ▸ List.mem_cons_self)
      have other : c ≠ '/' := fun same => segment.slash (same ▸ List.mem_cons_self)
      cases rest with
      | nil => simp [other]
      | cons next rest => simp [List.intercalate_cons_cons, other]
    | nil =>
      cases rest with
      | nil => simpa using noTail
      | cons next rest => simp [List.intercalate_cons_cons]

theorem utf16Length_ascii {text : Text} (ascii : ∀ c ∈ text, c.toNat ≤ 0x7e) : utf16Length text = text.length := by
  induction text with
  | nil => rfl
  | cons c rest ih =>
    have here := ascii c List.mem_cons_self
    have later := ih fun other member => ascii other (List.mem_cons_of_mem _ member)
    rw [utf16Length] at later ⊢
    rw [List.map_cons, List.sum_cons, later, if_pos (by omega), List.length_cons, Nat.add_comm]

theorem urlTrim_fixed {text : List Char} (plain : ∀ c ∈ text, 0x20 < c.toNat) : urlTrim text = text := by
  have stays : ∀ {text : List Char}, (∀ c ∈ text, 0x20 < c.toNat) → text.dropWhile urlSpace = text := by
    intro text plain
    cases text with
    | nil => rfl
    | cons c rest =>
      have here := plain c List.mem_cons_self
      exact List.dropWhile_cons_of_neg (by simp only [urlSpace, decide_eq_true_eq]; omega)
  rw [urlTrim, stays plain, stays (fun c member => plain c (List.mem_reverse.mp member)), List.reverse_reverse]
  exact filter_tabs_fixed fun c member => Nat.lt_of_succ_lt (plain c member)

end Targets

theorem staysOnSite_default : StaysOnSite defaultReturnTo :=
  ⟨⟨_, rfl, by decide⟩, fun _ _ _ => ⟨_, rfl⟩, by decide⟩

/-- A login returns to the site, whatever it was asked for, just when the value is refused or unambiguous. -/
theorem safeReturnTo_stays_iff (value : Text) :
    StaysOnSite (safeReturnTo value) ↔ refusesReturnTo value = true ∨ Unambiguous value := by
  cases refused : refusesReturnTo value with
  | true =>
    have fallback : safeReturnTo value = defaultReturnTo := by rw [safeReturnTo, refused]; rfl
    rw [fallback]
    exact ⟨fun _ => .inl rfl, fun _ => staysOnSite_default⟩
  | false =>
    have accepted := accepted_iff.mp refused
    obtain ⟨rest, trimmed, _, _, inside⟩ := accepted.trim
    have clean : CleanTarget (returnTarget value) := parseTarget_clean _
    have noBackslash : '\\' ∉ (returnTarget value).text := by
      rw [returnTarget, trimmed]
      exact text_backslash fun member => accepted.backslash (inside _ member)
    rw [accepted.safeReturnTo_eq]
    have text := text_eq clean
    have ascii : ∀ c ∈ (returnTarget value).text, 0x20 < c.toNat ∧ c.toNat ≤ 0x7e := fun c member =>
      text_ascii clean member
    have length := utf16Length_ascii fun c member => (ascii c member).2
    have fixed : urlTrim (returnTarget value).text = '/' :: (returnTarget value).rest := by
      rw [urlTrim_fixed fun c member => (ascii c member).1, text]
    constructor
    · intro stays
      refine .inr ⟨fun next others shape => ?_, ?_⟩
      · obtain ⟨tail, same, single⟩ := stays.slash
        rw [text] at same
        obtain rfl := (List.cons.inj same).2
        exact single ((rest_head_iff clean).mpr (accepted.path_begins_iff.mpr ⟨next, others, shape⟩))
      · by_contra long
        have refusedAgain : refusesReturnTo (returnTarget value).text = true := by
          have large : 2048 < utf16Length (returnTarget value).text := by omega
          simp [refusesReturnTo, large]
        have again := stays.again
        rw [safeReturnTo, refusedAgain] at again
        have short := congrArg List.length again
        simp [defaultReturnTo] at short
        omega
    · rintro (never | ⟨plain, short⟩)
      · cases never
      have single : (returnTarget value).rest.head? ≠ some '/' := fun two => by
        obtain ⟨next, others, shape⟩ := accepted.path_begins_iff.mp ((rest_head_iff clean).mp two)
        exact plain next others shape
      have noSecond : (returnTarget value).rest.head? ≠ some '\\' := fun two => by
        rw [text] at noBackslash
        exact noBackslash (List.mem_cons_of_mem _ (List.mem_of_mem_head? two))
      have acceptedAgain : AcceptedReturn (returnTarget value).text := by
        refine ⟨by omega, ⟨_, text, single⟩, noBackslash, ?_⟩
        refine List.any_eq_false.mpr fun c member => ?_
        have code := ascii c member
        simp only [Bool.or_eq_true, decide_eq_true_eq, not_or]
        omega
      refine ⟨⟨_, text, single⟩, fun ω elsewhere base => ⟨parseTarget (returnTarget value).rest, ?_⟩, ?_⟩
      · rw [resolveUrl, fixed]
        exact if_neg (not_or.mpr ⟨single, noSecond⟩)
      · rw [acceptedAgain.safeReturnTo_eq]
        show (parseTarget (urlTrim (returnTarget value).text).tail).text = _
        rw [fixed]
        exact text_parseTarget_rest clean

/-- A dot segment hides two slashes from the checks. -/
theorem safeReturnTo_dot_segment :
    safeReturnTo "/.//host.example".toList = "//host.example".toList ∧
      ¬ StaysOnSite (safeReturnTo "/.//host.example".toList) := by
  have returned : safeReturnTo "/.//host.example".toList = "//host.example".toList := by decide
  refine ⟨returned, fun stays => ?_⟩
  rw [returned] at stays
  obtain ⟨rest, same, single⟩ := stays.slash
  obtain rfl := (List.cons.inj same).2
  exact single rfl

end LatexRenderer
