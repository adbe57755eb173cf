import Mathlib.Data.List.Infix
import Mathlib.Tactic.SplitIfs

/-! # The path, query and fragment of an HTTPS URL

A URL parser takes a reference that begins with a single slash apart into a path, a query and a fragment: dot
segments go away, also percent-encoded ones, and characters outside a set are percent-encoded. What it writes is read
back as it stands, unless the path begins with an empty segment: then two slashes begin the text, and it is a
reference to another host.
-/

namespace Machine

/-- An upper-case hexadecimal digit. -/
def hexUpper (digit : Nat) : Char := if digit < 10 then Char.ofNat (48 + digit) else Char.ofNat (55 + digit)

/-- A percent-encoded octet. -/
def percentOctet (octet : UInt8) : List Char := ['%', hexUpper (octet.toNat / 16), hexUpper (octet.toNat % 16)]

/-- A character, percent-encoded in UTF-8 when it is in the set. -/
def percentEncodeChar (set : Char → Bool) (c : Char) : List Char :=
  if set c then (String.utf8EncodeChar c).flatMap percentOctet else [c]

/-- UTF-8 percent-encoding. -/
def percentEncode (set : Char → Bool) (text : List Char) : List Char := text.flatMap (percentEncodeChar set)

/-- The C0 control percent-encode set. -/
def c0ControlSet (c : Char) : Bool := c.toNat ≤ 0x1f || 0x7e < c.toNat

/-- The fragment percent-encode set. -/
def fragmentSet (c : Char) : Bool := c0ControlSet c || c ∈ [' ', '"', '<', '>', Char.ofNat 0x60]

/-- The query percent-encode set. -/
def querySet (c : Char) : Bool := c0ControlSet c || c ∈ [' ', '"', '#', '<', '>']

/-- The special-query percent-encode set. -/
def specialQuerySet (c : Char) : Bool := querySet c || c == '\''

/-- The path percent-encode set. -/
def pathSet (c : Char) : Bool := querySet c || c ∈ ['?', '^', Char.ofNat 0x60, Char.ofNat 0x7b, Char.ofNat 0x7d]

/-- A single-dot segment. -/
def singleDot (segment : List Char) : Bool :=
  [['.'], ['%', '2', 'e']].contains (segment.map Char.toLower)

/-- A double-dot segment. -/
def doubleDot (segment : List Char) : Bool :=
  [['.', '.'], ['.', '%', '2', 'e'], ['%', '2', 'e', '.'], ['%', '2', 'e', '%', '2', 'e']].contains
    (segment.map Char.toLower)

/-- The end of a segment in the path state; the last segment is not followed by a slash. -/
def addSegment (path : List (List Char)) (segment : List Char) (last : Bool) : List (List Char) :=
  if doubleDot segment then (if last then path.dropLast ++ [[]] else path.dropLast)
  else if singleDot segment then (if last then path ++ [[]] else path)
  else path ++ [segment]

/-- The path state over the segments of a text. -/
def addSegments (path : List (List Char)) : List (List Char) → List (List Char)
  | [] => path
  | [segment] => addSegment path segment true
  | segment :: rest => addSegments (addSegment path segment false) rest

/-- The text before the first such character, and the text after it. -/
def cut (mark : Char) : List Char → List Char × Option (List Char)
  | [] => ([], none)
  | c :: rest => if c = mark then ([], some rest) else (c :: (cut mark rest).1, (cut mark rest).2)

/-- Where a URL points to on its host. -/
structure UrlTarget where
  path : List (List Char)
  query : Option (List Char)
  fragment : Option (List Char)
  deriving DecidableEq

/-- The path of a text; a backslash is a slash there. -/
def parsePath (text : List Char) : List (List Char) :=
  addSegments [] (((text.map fun c => if c = '\\' then '/' else c).splitOn '/').map (percentEncode pathSet))

/-- The path, query and fragment states, after the first slash. -/
def parseTarget (text : List Char) : UrlTarget where
  path := parsePath (cut '?' (cut '#' text).1).1
  query := (cut '?' (cut '#' text).1).2.map (percentEncode specialQuerySet)
  fragment := (cut '#' text).2.map (percentEncode fragmentSet)

def UrlTarget.pathname (target : UrlTarget) : List Char := target.path.flatMap fun segment => '/' :: segment

/-- A part with its mark, or nothing when it is empty. -/
def marked (mark : Char) : Option (List Char) → List Char
  | none => []
  | some part => if part = [] then [] else mark :: part

def UrlTarget.search (target : UrlTarget) : List Char := marked '?' target.query

def UrlTarget.hash (target : UrlTarget) : List Char := marked '#' target.fragment

/-- `pathname`, `search` and `hash`. -/
def UrlTarget.text (target : UrlTarget) : List Char := target.pathname ++ target.search ++ target.hash

/-- A URL of a special scheme. -/
structure Url (ω : Type) where
  origin : ω
  target : UrlTarget

/-- A character that a URL parser takes off at both ends. -/
def urlSpace (c : Char) : Bool := c.toNat ≤ 0x20

/-- A reference without the white space that a URL parser takes off. -/
def urlTrim (reference : List Char) : List Char :=
  (((reference.dropWhile urlSpace).reverse.dropWhile urlSpace).reverse).filter fun c => c ∉ ['\t', '\n', '\r']

/-- The URL parser with a base of a special scheme: a single slash leads to the base's own host; every other reference
is parsed `elsewhere`. -/
def resolveUrl {ω : Type} (elsewhere : ω → List Char → Option (Url ω)) (base : ω) (reference : List Char) :
    Option (Url ω) :=
  match urlTrim reference with
  | '/' :: rest =>
    if rest.head? = some '/' ∨ rest.head? = some '\\' then elsewhere base ('/' :: rest)
    else some { origin := base, target := parseTarget rest }
  | other => elsewhere base other

section Encoding

variable {set : Char → Bool} {text : List Char}

/-- A set without the characters that percent-encoding writes. -/
structure EncodeSet (set : Char → Bool) : Prop where
  percent : set '%' = false
  digit : ∀ digit < 16, set (hexUpper digit) = false

theorem encodeSet_path : EncodeSet pathSet := ⟨by decide, by decide⟩

theorem encodeSet_specialQuery : EncodeSet specialQuerySet := ⟨by decide, by decide⟩

theorem encodeSet_fragment : EncodeSet fragmentSet := ⟨by decide, by decide⟩

/-- What percent-encoding writes. -/
theorem mem_percentEncode {c : Char} (member : c ∈ percentEncode set text) :
    (c ∈ text ∧ set c = false) ∨ c = '%' ∨ ∃ digit < 16, c = hexUpper digit := by
  obtain ⟨source, there, written⟩ := List.mem_flatMap.mp member
  unfold percentEncodeChar at written
  split at written
  · obtain ⟨octet, _, written⟩ := List.mem_flatMap.mp written
    have bound := octet.toNat_lt
    simp only [percentOctet, List.mem_cons, List.not_mem_nil, or_false] at written
    rcases written with rfl | rfl | rfl
    · exact .inr (.inl rfl)
    · exact .inr (.inr ⟨_, by omega, rfl⟩)
    · exact .inr (.inr ⟨_, Nat.mod_lt _ (by decide), rfl⟩)
  · next plain =>
    obtain rfl := List.mem_singleton.mp written
    exact .inl ⟨there, Bool.eq_false_iff.mpr plain⟩

theorem percentEncode_set (encodes : EncodeSet set) {c : Char} (member : c ∈ percentEncode set text) :
    set c = false := by
  rcases mem_percentEncode member with ⟨_, plain⟩ | rfl | ⟨digit, small, rfl⟩
  · exact plain
  · exact encodes.percent
  · exact encodes.digit digit small

/-- A text without characters of the set stays as it is. -/
theorem percentEncode_fixed (plain : ∀ c ∈ text, set c = false) : percentEncode set text = text := by
  induction text with
  | nil => rfl
  | cons c rest ih =>
    have here := plain c List.mem_cons_self
    have later := ih fun other member => plain other (List.mem_cons_of_mem _ member)
    have single : percentEncodeChar set c = [c] := by
      rw [percentEncodeChar, here]
      rfl
    show percentEncodeChar set c ++ percentEncode set rest = c :: rest
    rw [single, later]
    rfl

/-- A character that percent-encoding writes only where it was. -/
theorem not_mem_percentEncode {c : Char} (absent : c ∉ text) (percent : c ≠ '%')
    (digit : ∀ digit < 16, c ≠ hexUpper digit) : c ∉ percentEncode set text := by
  intro member
  rcases mem_percentEncode member with ⟨there, _⟩ | same | ⟨value, small, same⟩
  · exact absent there
  · exact percent same
  · exact digit value small same

theorem toLower_of_pathSet {c : Char} (inside : pathSet c = true) : c.toLower = c := by
  have other : ¬ (65 ≤ c.toNat ∧ c.toNat ≤ 90) := by
    rintro ⟨low, high⟩
    simp only [pathSet, querySet, c0ControlSet, List.mem_cons, List.not_mem_nil, or_false, Bool.or_eq_true,
      decide_eq_true_eq] at inside
    rcases inside with ((small | large) | rfl | rfl | rfl | rfl | rfl) | rfl | rfl | rfl | rfl | rfl
    · omega
    · omega
    all_goals revert low high; decide
  unfold Char.toLower
  split
  · next upper => exact absurd upper other
  · rfl

/-- The first octet of a character of the set is not that of a dot. -/
theorem utf8EncodeChar_of_pathSet {c : Char} (inside : pathSet c = true) :
    ∃ octet rest, String.utf8EncodeChar c = octet :: rest ∧ octet.toNat ≠ 46 := by
  have dot : c.val.toNat ≠ 46 := fun same => by
    obtain rfl : c = '.' := Char.ext (UInt32.toNat_inj.mp same)
    cases inside
  have valid : c.val.toNat < 0x110000 := by
    have := c.valid
    rcases this with h | h
    · exact Nat.lt_trans h (by decide)
    · exact h.2
  unfold String.utf8EncodeChar
  simp only
  split_ifs with one two three
  all_goals
    refine ⟨_, _, rfl, ?_⟩
    rw [UInt8.toNat_ofNat']
    omega

/-- A character of the set is written with a mark that is not that of a dot. -/
theorem exists_mark_suffix {c : Char} (member : c ∈ text) (inside : pathSet c = true) :
    ∃ octet rest, octet.toNat ≠ 46 ∧ percentOctet octet ++ rest <:+ percentEncode pathSet text := by
  obtain ⟨front, back, rfl⟩ := List.append_of_mem member
  obtain ⟨octet, rest, octets, other⟩ := utf8EncodeChar_of_pathSet inside
  refine ⟨octet, rest.flatMap percentOctet ++ percentEncode pathSet back, other, percentEncode pathSet front, ?_⟩
  simp [percentEncode, percentEncodeChar, inside, octets]

theorem eq_dot_of_hexUpper {octet : UInt8} (high : (hexUpper (octet.toNat / 16)).toLower = '2')
    (low : (hexUpper (octet.toNat % 16)).toLower = 'e') : octet.toNat = 46 := by
  have two : ∀ digit < 16, (hexUpper digit).toLower = '2' → digit = 2 := by decide
  have fourteen : ∀ digit < 16, (hexUpper digit).toLower = 'e' → digit = 14 := by decide
  have bound := octet.toNat_lt
  have first := two _ (by omega) high
  have second := fourteen _ (by omega) low
  omega

/-- Percent-encoding makes and unmakes none of these words. -/
theorem contains_percentEncode {words : List (List Char)}
    (plain : ∀ word ∈ words, word.any pathSet = false)
    (marks : ∀ word ∈ words, ∀ tail ∈ word.tails, tail.head? = some '%' → tail[1]? = some '2' ∧ tail[2]? = some 'e')
    (segment : List Char) :
    words.contains ((percentEncode pathSet segment).map Char.toLower) = words.contains (segment.map Char.toLower) := by
  by_cases free : ∀ c ∈ segment, pathSet c = false
  · rw [percentEncode_fixed free]
  obtain ⟨c, free⟩ := not_forall.mp free
  obtain ⟨member, inside⟩ := Classical.not_imp.mp free
  rw [Bool.not_eq_false] at inside
  -- With a character of the set, neither the segment nor what is written of it is a word.
  have encoded : words.contains ((percentEncode pathSet segment).map Char.toLower) = false := by
    refine Bool.eq_false_iff.mpr fun found => ?_
    obtain ⟨octet, rest, other, suffix⟩ := exists_mark_suffix member inside
    obtain ⟨high, low⟩ := marks _ (List.contains_iff_mem.mp found) _ ((List.mem_tails _ _).mpr (suffix.map Char.toLower)) rfl
    exact other (eq_dot_of_hexUpper (Option.some.inj high) (Option.some.inj low))
  have raw : words.contains (segment.map Char.toLower) = false := by
    refine Bool.eq_false_iff.mpr fun found => ?_
    have free := List.any_eq_false.mp (plain _ (List.contains_iff_mem.mp found)) c.toLower (List.mem_map_of_mem member)
    rw [toLower_of_pathSet inside] at free
    exact free inside
  rw [encoded, raw]

theorem singleDot_percentEncode (segment : List Char) : singleDot (percentEncode pathSet segment) = singleDot segment :=
  contains_percentEncode (by decide) (by decide) segment

theorem doubleDot_percentEncode (segment : List Char) : doubleDot (percentEncode pathSet segment) = doubleDot segment :=
  contains_percentEncode (by decide) (by decide) segment

theorem percentEncode_eq_nil {text : List Char} : percentEncode pathSet text = [] ↔ text = [] := by
  cases text with
  | nil => exact Iff.rfl
  | cons c rest =>
    refine ⟨fun empty => ?_, fun never => by cases never⟩
    have first := (List.append_eq_nil_iff.mp empty).1
    unfold percentEncodeChar at first
    split at first
    · next inside =>
      obtain ⟨octet, rest, octets, _⟩ := utf8EncodeChar_of_pathSet inside
      rw [octets] at first
      cases first
    · cases first

end Encoding

section Paths

/-- A segment that the path state leaves alone. -/
structure CleanSegment (segment : List Char) : Prop where
  set : ∀ c ∈ segment, pathSet c = false
  slash : '/' ∉ segment
  backslash : '\\' ∉ segment
  single : singleDot segment = false
  double : doubleDot segment = false

theorem cleanSegment_nil : CleanSegment [] := ⟨by simp, by simp, by simp, by decide, by decide⟩

variable {path segments : List (List Char)}

theorem addSegment_clean {segment : List Char} {last : Bool} (clean : ∀ other ∈ path, CleanSegment other)
    (here : singleDot segment = false → doubleDot segment = false → CleanSegment segment) :
    ∀ other ∈ addSegment path segment last, CleanSegment other := by
  have appended : ∀ (front : List (List Char)) (added : List Char), (∀ other ∈ front, CleanSegment other) →
      CleanSegment added → ∀ other ∈ front ++ [added], CleanSegment other := by
    intro front added cleanFront cleanAdded other member
    rcases List.mem_append.mp member with before | same
    · exact cleanFront other before
    · exact List.mem_singleton.mp same ▸ cleanAdded
  have shorter : ∀ other ∈ path.dropLast, CleanSegment other := fun other member =>
    clean other (List.dropLast_subset path member)
  unfold addSegment
  split
  · split
    · exact appended _ _ shorter cleanSegment_nil
    · exact shorter
  · next notDouble =>
    split
    · split
      · exact appended _ _ clean cleanSegment_nil
      · exact clean
    · next notSingle =>
      exact appended _ _ clean
        (here (Bool.eq_false_iff.mpr notSingle) (Bool.eq_false_iff.mpr notDouble))

theorem addSegments_clean (clean : ∀ other ∈ path, CleanSegment other)
    (each : ∀ segment ∈ segments, singleDot segment = false → doubleDot segment = false → CleanSegment segment) :
    ∀ other ∈ addSegments path segments, CleanSegment other := by
  induction segments generalizing path with
  | nil => exact clean
  | cons segment rest ih =>
    have here := each segment List.mem_cons_self
    cases rest with
    | nil => exact addSegment_clean clean here
    | cons next rest =>
      exact ih (addSegment_clean clean here) fun other member => each other (List.mem_cons_of_mem _ member)

theorem addSegments_ne_nil (some : segments ≠ []) : addSegments path segments ≠ [] := by
  induction segments generalizing path with
  | nil => exact absurd rfl some
  | cons segment rest ih =>
    cases rest with
    | nil =>
      unfold addSegments addSegment
      split
      · simp
      · split <;> simp
    | cons next rest => exact ih (by simp)

/-- Segments that are clean are added as they are. -/
theorem addSegments_fixed (clean : ∀ segment ∈ segments, CleanSegment segment) :
    addSegments path segments = path ++ segments := by
  have kept : ∀ (front : List (List Char)) {segment : List Char} (last : Bool), CleanSegment segment →
      addSegment front segment last = front ++ [segment] := by
    intro front segment last clean
    rw [addSegment, clean.double, clean.single]
    rfl
  induction segments generalizing path with
  | nil => exact (List.append_nil _).symm
  | cons segment rest ih =>
    have here := clean segment List.mem_cons_self
    cases rest with
    | nil => exact kept path true here
    | cons next rest =>
      have later : addSegments (path ++ [segment]) (next :: rest) = path ++ [segment] ++ next :: rest :=
        ih fun other member => clean other (List.mem_cons_of_mem _ member)
      show addSegments (addSegment path segment false) (next :: rest) = _
      rw [kept path false here, later, List.append_assoc]
      rfl

theorem not_mem_of_splitOn {text part : List Char} {mark : Char} (member : part ∈ text.splitOn mark) : mark ∉ part := by
  induction text generalizing part with
  | nil =>
    rw [List.splitOn_nil] at member
    rw [List.mem_singleton.mp member]
    exact List.not_mem_nil
  | cons c rest ih =>
    rw [List.splitOn_cons_eq_if_modifyHead] at member
    split at member
    · rcases List.mem_cons.mp member with rfl | later
      · exact List.not_mem_nil
      · exact ih later
    · next other =>
      cases shape : rest.splitOn mark with
      | nil => exact absurd shape (List.splitOn_ne_nil _ _)
      | cons first parts =>
        rw [shape] at member ih
        rcases List.mem_cons.mp member with rfl | later
        · intro inside
          rcases List.mem_cons.mp inside with rfl | inside
          · simp at other
          · exact ih List.mem_cons_self inside
        · exact ih (List.mem_cons_of_mem _ later)

theorem mem_of_splitOn {text part : List Char} {mark c : Char} (member : part ∈ text.splitOn mark) (inside : c ∈ part) :
    c ∈ text := by
  have joined : List.intercalate [mark] (text.splitOn mark) = text := List.intercalate_splitOn mark
  rw [← joined]
  generalize text.splitOn mark = parts at member
  induction parts with
  | nil => cases member
  | cons first rest ih =>
    cases rest with
    | nil =>
      obtain rfl := List.mem_singleton.mp member
      simpa using inside
    | cons second rest =>
      rw [List.intercalate_cons_cons]
      rcases List.mem_cons.mp member with rfl | later
      · simp [inside]
      · simp [ih later]

/-- The path that is read from a text is clean. -/
theorem parsePath_clean (text : List Char) : ∀ segment ∈ parsePath text, CleanSegment segment := by
  refine addSegments_clean (fun _ never => (nomatch never)) fun segment member single double => ?_
  obtain ⟨part, listed, rfl⟩ := List.mem_map.mp member
  have noSlash : '/' ∉ part := not_mem_of_splitOn listed
  have noBackslash : '\\' ∉ part := by
    intro inside
    obtain ⟨c, _, same⟩ := List.mem_map.mp (mem_of_splitOn listed inside)
    split at same
    · cases same
    · next other => exact other same
  exact ⟨fun c member => percentEncode_set encodeSet_path member, not_mem_percentEncode noSlash (by decide) (by decide),
    not_mem_percentEncode noBackslash (by decide) (by decide), single, double⟩

theorem parsePath_ne_nil (text : List Char) : parsePath text ≠ [] :=
  addSegments_ne_nil fun empty => List.splitOn_ne_nil _ _ (List.map_eq_nil_iff.mp empty)

theorem mem_intercalate {c : Char} (member : c ∈ List.intercalate ['/'] path) :
    c = '/' ∨ ∃ segment ∈ path, c ∈ segment := by
  induction path with
  | nil => simp at member
  | cons first rest ih =>
    cases rest with
    | nil => exact .inr ⟨first, List.mem_cons_self, by simpa using member⟩
    | cons second rest =>
      rw [List.intercalate_cons_cons, List.mem_append, List.mem_append] at member
      rcases member with (inside | slash) | later
      · exact .inr ⟨first, List.mem_cons_self, inside⟩
      · exact .inl (List.mem_singleton.mp slash)
      · rcases ih later with same | ⟨segment, listed, inside⟩
        · exact .inl same
        · exact .inr ⟨segment, List.mem_cons_of_mem _ listed, inside⟩

/-- A clean path is read back. -/
theorem parsePath_intercalate (clean : ∀ segment ∈ path, CleanSegment segment) (some : path ≠ []) :
    parsePath (List.intercalate ['/'] path) = path := by
  have noBackslash : '\\' ∉ List.intercalate ['/'] path := by
    intro member
    rcases mem_intercalate member with never | ⟨segment, listed, inside⟩
    · exact absurd never (by decide)
    · exact (clean segment listed).backslash inside
  have unchanged : (List.intercalate ['/'] path).map (fun c => if c = '\\' then '/' else c) =
      List.intercalate ['/'] path := by
    refine (List.map_congr_left fun c member => if_neg fun same : c = '\\' => noBackslash (same ▸ member)).trans ?_
    exact List.map_id _
  rw [parsePath, unchanged, List.splitOn_intercalate '/' (fun segment listed => (clean segment listed).slash) some]
  have encoded : path.map (percentEncode pathSet) = path := by
    refine (List.map_congr_left fun segment listed => ?_).trans path.map_id
    exact percentEncode_fixed (clean segment listed).set
  rw [encoded, addSegments_fixed clean, List.nil_append]

theorem addSegment_percentEncode (path : List (List Char)) (segment : List Char) (last : Bool) :
    addSegment (path.map (percentEncode pathSet)) (percentEncode pathSet segment) last =
      (addSegment path segment last).map (percentEncode pathSet) := by
  unfold addSegment
  rw [singleDot_percentEncode, doubleDot_percentEncode]
  split_ifs <;> simp [percentEncode]

theorem addSegments_percentEncode (segments path : List (List Char)) :
    addSegments (path.map (percentEncode pathSet)) (segments.map (percentEncode pathSet)) =
      (addSegments path segments).map (percentEncode pathSet) := by
  induction path, segments using addSegments.induct with
  | case1 path => rfl
  | case2 path segment => exact addSegment_percentEncode path segment true
  | case3 path segment rest some ih =>
    cases rest with
    | nil => exact absurd rfl some
    | cons next later =>
      rw [addSegments, ← ih, ← addSegment_percentEncode]
      · rfl
      · exact some

end Paths

section Targets

variable {mark : Char} {text front back : List Char}

theorem cut_of_not_mem (absent : mark ∉ front) : cut mark front = (front, none) := by
  induction front with
  | nil => rfl
  | cons c rest ih =>
    have other : c ≠ mark := fun same => absent (same ▸ List.mem_cons_self)
    rw [cut, if_neg other, ih fun member => absent (List.mem_cons_of_mem _ member)]

theorem cut_append (absent : mark ∉ front) : cut mark (front ++ mark :: back) = (front, some back) := by
  induction front with
  | nil =>
    rw [List.nil_append, cut, if_pos rfl]
  | cons c rest ih =>
    have other : c ≠ mark := fun same => absent (same ▸ List.mem_cons_self)
    rw [List.cons_append, cut, if_neg other, ih fun member => absent (List.mem_cons_of_mem _ member)]

/-- A part with its mark is taken off again. -/
theorem cut_marked (absent : mark ∉ front) (part : Option (List Char)) :
    (cut mark (front ++ marked mark part)).1 = front ∧
      marked mark (cut mark (front ++ marked mark part)).2 = marked mark part := by
  have nothing : cut mark (front ++ []) = (front, none) := by rw [List.append_nil, cut_of_not_mem absent]
  cases part with
  | none => exact ⟨congrArg Prod.fst nothing, congrArg (fun parts => marked mark parts.2) nothing⟩
  | some part =>
    rw [marked]
    split
    · exact ⟨congrArg Prod.fst nothing, congrArg (fun parts => marked mark parts.2) nothing⟩
    · next some =>
      rw [cut_append absent]
      exact ⟨rfl, if_neg some⟩

/-- A target that parsing writes. -/
structure CleanTarget (target : UrlTarget) : Prop where
  path : ∀ segment ∈ target.path, CleanSegment segment
  nonempty : target.path ≠ []
  query : ∀ part, target.query = some part → ∀ c ∈ part, specialQuerySet c = false
  fragment : ∀ part, target.fragment = some part → ∀ c ∈ part, fragmentSet c = false

theorem parseTarget_clean (text : List Char) : CleanTarget (parseTarget text) where
  path := parsePath_clean _
  nonempty := parsePath_ne_nil _
  query := by
    intro part parsed c member
    obtain ⟨source, _, rfl⟩ := Option.map_eq_some_iff.mp parsed
    exact percentEncode_set encodeSet_specialQuery member
  fragment := by
    intro part parsed c member
    obtain ⟨source, _, rfl⟩ := Option.map_eq_some_iff.mp parsed
    exact percentEncode_set encodeSet_fragment member

variable {target : UrlTarget}

theorem mem_marked {part : Option (List Char)} {c : Char} (member : c ∈ marked mark part) :
    c = mark ∨ ∃ inner, part = some inner ∧ c ∈ inner := by
  cases part with
  | none => cases member
  | some inner =>
    rw [marked] at member
    split at member
    · cases member
    · rcases List.mem_cons.mp member with same | inside
      · exact .inl same
      · exact .inr ⟨inner, rfl, inside⟩

theorem pathname_eq {path : List (List Char)} (some : path ≠ []) :
    (path.flatMap fun segment => '/' :: segment) = '/' :: List.intercalate ['/'] path := by
  induction path with
  | nil => exact absurd rfl some
  | cons first rest ih =>
    cases rest with
    | nil => simp
    | cons second rest =>
      rw [List.flatMap_cons, ih (List.cons_ne_nil _ _), List.intercalate_cons_cons]
      simp

/-- The text after the first slash. -/
def UrlTarget.rest (target : UrlTarget) : List Char :=
  List.intercalate ['/'] target.path ++ target.search ++ target.hash

theorem text_eq (clean : CleanTarget target) : target.text = '/' :: target.rest := by
  rw [UrlTarget.text, UrlTarget.pathname, pathname_eq clean.nonempty]
  rfl

theorem pathSet_of_mem_path (clean : CleanTarget target) {c : Char} (member : c ∈ List.intercalate ['/'] target.path) :
    c = '/' ∨ pathSet c = false ∧ c ≠ '\\' := by
  rcases mem_intercalate member with same | ⟨segment, listed, inside⟩
  · exact .inl same
  · have plain := (clean.path segment listed).set c inside
    refine .inr ⟨plain, ?_⟩
    rintro rfl
    exact (clean.path segment listed).backslash inside

theorem search_hash_free (clean : CleanTarget target) : '#' ∉ List.intercalate ['/'] target.path ++ target.search := by
  intro member
  rcases List.mem_append.mp member with inside | inside
  · rcases pathSet_of_mem_path clean inside with same | ⟨plain, _⟩
    · exact absurd same (by decide)
    · exact absurd plain (by decide)
  · rcases mem_marked inside with same | ⟨part, query, inside⟩
    · exact absurd same (by decide)
    · exact absurd (clean.query part query _ inside) (by decide)

theorem path_query_free (clean : CleanTarget target) : '?' ∉ List.intercalate ['/'] target.path := by
  intro member
  rcases pathSet_of_mem_path clean member with same | ⟨plain, _⟩
  · exact absurd same (by decide)
  · exact absurd plain (by decide)

theorem marked_map_fixed {part : Option (List Char)} {encode : List Char → List Char}
    (fixed : ∀ inner, part = some inner → encode inner = inner) :
    marked mark (part.map encode) = marked mark part := by
  cases part with
  | none => rfl
  | some inner => rw [Option.map_some, fixed inner rfl]

theorem marked_inner {part other : Option (List Char)} (same : marked mark part = marked mark other) {inner : List Char}
    (here : part = some inner) : inner = [] ∨ other = some inner := by
  subst here
  rw [marked] at same
  split at same
  · next empty => exact .inl empty
  · cases other with
    | none => cases same
    | some part =>
      rw [marked] at same
      split at same
      · cases same
      · cases same
        exact .inr rfl

/-- What parsing writes is read back to the same text. -/
theorem text_parseTarget_rest (clean : CleanTarget target) : (parseTarget target.rest).text = target.text := by
  obtain ⟨front, hash⟩ := cut_marked (search_hash_free clean) target.fragment
  obtain ⟨path, search⟩ := cut_marked (path_query_free clean) target.query
  have whole : target.rest = List.intercalate ['/'] target.path ++ target.search ++ marked '#' target.fragment := rfl
  have query : List.intercalate ['/'] target.path ++ target.search =
    List.intercalate ['/'] target.path ++ marked '?' target.query := rfl
  have pathRead : (parseTarget target.rest).path = target.path := by
    rw [parseTarget, whole, front, query, path, parsePath_intercalate clean.path clean.nonempty]
  have searchRead : (parseTarget target.rest).search = target.search := by
    show marked '?' ((cut '?' (cut '#' target.rest).1).2.map (percentEncode specialQuerySet)) = _
    rw [whole, front, query]
    refine (marked_map_fixed fun inner there => ?_).trans search
    rcases marked_inner search there with rfl | same
    · rfl
    · exact percentEncode_fixed (clean.query inner same)
  have hashRead : (parseTarget target.rest).hash = target.hash := by
    show marked '#' ((cut '#' target.rest).2.map (percentEncode fragmentSet)) = _
    rw [whole]
    refine (marked_map_fixed fun inner there => ?_).trans hash
    rcases marked_inner hash there with rfl | same
    · rfl
    · exact percentEncode_fixed (clean.fragment inner same)
  rw [UrlTarget.text, UrlTarget.text, UrlTarget.pathname, UrlTarget.pathname, pathRead, searchRead, hashRead]

end Targets

end Machine
