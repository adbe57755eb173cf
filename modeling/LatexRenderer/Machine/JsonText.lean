import LatexRenderer.Machine.Json

/-! # The text of JSON values

A string is written so that its text holds characters only: halves of surrogate pairs that stand alone are escaped.
What was written is read back, a string as the same units and an object as the same properties.
-/

namespace Machine

/-- A hexadecimal digit. -/
def escapeDigit (value : Nat) : Char := if value < 10 then Char.ofNat (48 + value) else Char.ofNat (87 + value)

/-- A unit, escaped. -/
def unicodeEscape (unit : UInt16) : List Char :=
  ['\\', 'u', escapeDigit (unit.toNat / 4096), escapeDigit (unit.toNat / 256 % 16), escapeDigit (unit.toNat / 16 % 16),
    escapeDigit (unit.toNat % 16)]

/-- The short escape of a unit, if it has one. -/
def escapeOf (unit : UInt16) : Option Char :=
  if unit = 34 then some '"'
  else if unit = 92 then some '\\'
  else if unit = 8 then some 'b'
  else if unit = 12 then some 'f'
  else if unit = 10 then some 'n'
  else if unit = 13 then some 'r'
  else if unit = 9 then some 't'
  else none

/-- The unit is half of a surrogate pair. -/
def surrogate (unit : UInt16) : Bool := decide (0xD800 ≤ unit.toNat ∧ unit.toNat ≤ 0xDFFF)

/-- The units are a surrogate pair. -/
def surrogatePair (first second : UInt16) : Bool :=
  decide (0xD800 ≤ first.toNat ∧ first.toNat ≤ 0xDBFF ∧ 0xDC00 ≤ second.toNat ∧ second.toNat ≤ 0xDFFF)

/-- The character of a surrogate pair. -/
def pairChar (first second : UInt16) : Char :=
  Char.ofNat (0x10000 + (first.toNat - 0xD800) * 0x400 + (second.toNat - 0xDC00))

/-- A unit that is not part of a surrogate pair. -/
def quoteUnit (unit : UInt16) : List Char :=
  (escapeOf unit).elim
    (if unit.toNat < 0x20 ∨ surrogate unit then unicodeEscape unit else [Char.ofNat unit.toNat])
    fun escape => ['\\', escape]

/-- The units of a string. -/
def quoteUnits : Units → List Char
  | [] => []
  | [unit] => quoteUnit unit
  | first :: second :: rest =>
    if surrogatePair first second then pairChar first second :: quoteUnits rest
    else quoteUnit first ++ quoteUnits (second :: rest)

/-- A string. -/
def quoted (units : Units) : List Char := '"' :: quoteUnits units ++ ['"']

/-- Members, each with the text of its value. -/
def membersText : List (Units × List Char) → List Char
  | [] => []
  | [member] => quoted member.1 ++ ':' :: member.2
  | member :: next :: rest => quoted member.1 ++ ':' :: member.2 ++ ',' :: membersText (next :: rest)

/-- An object. -/
def objectText (members : List (Units × List Char)) : List Char := '{' :: membersText members ++ ['}']

/-! ## Strings -/

section Strings

variable {unit first second : UInt16} {rest : List Char}

theorem toNat_char {value : Nat} (valid : value.isValidChar) : (Char.ofNat value).toNat = value := by
  rw [Char.ofNat, dif_pos valid]
  rfl

theorem toNat_unit {value : Nat} (small : value < 0x10000) : (UInt16.ofNat value).toNat = value := by
  rw [UInt16.toNat_ofNat']
  exact Nat.mod_eq_of_lt small

theorem hexValue_escapeDigit : ∀ value < 16, hexValue (escapeDigit value) = some value := by decide

/-- Reading a unit and then the rest. -/
def reads (units : Units) (rest : List Char) : Option (Units × List Char) :=
  (parseString rest).map fun read => (units ++ read.1, read.2)

theorem parseString_quote (rest : List Char) : parseString ('"' :: rest) = some ([], rest) := by
  rw [parseString.eq_def]
  exact if_pos rfl

theorem parseString_escape {escape : Char} (short : shortEscape escape = some unit) :
    parseString ('\\' :: escape :: rest) = reads [unit] rest := by
  have other : escape ≠ 'u' := by
    rintro rfl
    cases short
  rw [parseString.eq_def]
  dsimp only
  rw [if_neg (by decide), if_pos rfl, if_neg other, short]
  rfl

theorem parseString_unicodeEscape (unit : UInt16) (rest : List Char) :
    parseString (unicodeEscape unit ++ rest) = reads [unit] rest := by
  have bound := unit.toNat_lt
  have whole : hexUnit (escapeDigit (unit.toNat / 4096)) (escapeDigit (unit.toNat / 256 % 16)) (escapeDigit (unit.toNat / 16 % 16))
      (escapeDigit (unit.toNat % 16)) = some unit := by
    rw [hexUnit, hexValue_escapeDigit _ (by omega), hexValue_escapeDigit _ (by omega), hexValue_escapeDigit _ (by omega),
      hexValue_escapeDigit _ (by omega)]
    simp only [Option.bind_some, Option.map_some]
    rw [show unit.toNat / 4096 * 4096 + unit.toNat / 256 % 16 * 256 + unit.toNat / 16 % 16 * 16 + unit.toNat % 16 =
      unit.toNat by omega, UInt16.ofNat_toNat]
  show parseString ('\\' :: 'u' :: escapeDigit (unit.toNat / 4096) :: escapeDigit (unit.toNat / 256 % 16) ::
    escapeDigit (unit.toNat / 16 % 16) :: escapeDigit (unit.toNat % 16) :: rest) = _
  rw [parseString.eq_def]
  dsimp only
  rw [if_neg (by decide), if_pos rfl, if_pos rfl, whole]
  rfl

theorem parseString_char {c : Char} (quote : c.toNat ≠ 34) (slash : c.toNat ≠ 92) (visible : 0x20 ≤ c.toNat) :
    parseString (c :: rest) = reads (charUnits c) rest := by
  have first : c ≠ '"' := fun same => quote (same ▸ rfl)
  have second : c ≠ '\\' := fun same => slash (same ▸ rfl)
  rw [parseString.eq_def]
  dsimp only
  rw [if_neg first, if_neg second, if_neg (Nat.not_lt.mpr visible)]
  rfl

theorem shortEscape_escapeOf {escape : Char} (short : escapeOf unit = some escape) : shortEscape escape = some unit := by
  unfold escapeOf at short
  split_ifs at short with same same same same same same same
  all_goals
    cases short
    rw [same]
    rfl

theorem escapeOf_none (long : escapeOf unit = none) : unit ≠ 34 ∧ unit ≠ 92 := by
  unfold escapeOf at long
  split_ifs at long with first second
  all_goals exact ⟨first, second⟩

/-- A unit is read back. -/
theorem parseString_quoteUnit (unit : UInt16) (rest : List Char) :
    parseString (quoteUnit unit ++ rest) = reads [unit] rest := by
  unfold quoteUnit
  cases short : escapeOf unit with
  | some escape => exact parseString_escape (shortEscape_escapeOf short)
  | none =>
    show parseString ((if unit.toNat < 0x20 ∨ surrogate unit then unicodeEscape unit else [Char.ofNat unit.toNat]) ++ rest) = _
    split_ifs with control
    · exact parseString_unicodeEscape unit rest
    · obtain ⟨quote, slash⟩ := escapeOf_none short
      have bound := unit.toNat_lt
      simp only [surrogate, decide_eq_true_eq, not_or] at control
      have char : (Char.ofNat unit.toNat).toNat = unit.toNat := toNat_char (by
        unfold Nat.isValidChar
        omega)
      have units : charUnits (Char.ofNat unit.toNat) = [unit] := by
        rw [charUnits, char, if_pos (by omega), UInt16.ofNat_toNat]
      rw [List.singleton_append, parseString_char, units]
      · exact fun same => quote (UInt16.toNat_inj.mp (char ▸ same))
      · exact fun same => slash (UInt16.toNat_inj.mp (char ▸ same))
      · rw [char]
        omega

/-- A surrogate pair is read back. -/
theorem parseString_pairChar (pair : surrogatePair first second = true) (rest : List Char) :
    parseString (pairChar first second :: rest) = reads [first, second] rest := by
  simp only [surrogatePair, decide_eq_true_eq] at pair
  have char : (pairChar first second).toNat = 0x10000 + (first.toNat - 0xD800) * 0x400 + (second.toNat - 0xDC00) :=
    toNat_char (by
      unfold Nat.isValidChar
      omega)
  obtain ⟨code, same⟩ : ∃ code, code = (first.toNat - 0xD800) * 0x400 + (second.toNat - 0xDC00) := ⟨_, rfl⟩
  rw [Nat.add_assoc, ← same] at char
  have high : UInt16.ofNat (0xD800 + code / 0x400) = first := UInt16.toNat_inj.mp (by
    rw [toNat_unit (by omega)]
    omega)
  have low : UInt16.ofNat (0xDC00 + code % 0x400) = second := UInt16.toNat_inj.mp (by
    rw [toNat_unit (by omega)]
    omega)
  have units : charUnits (pairChar first second) = [first, second] := by
    rw [charUnits, char, if_neg (by omega), Nat.add_sub_cancel_left, high, low]
  rw [parseString_char (by omega) (by omega) (by omega), units]

/-- A string is read back. -/
theorem parseString_quoteUnits (units : Units) (rest : List Char) :
    parseString (quoteUnits units ++ '"' :: rest) = some (units, rest) := by
  induction units using quoteUnits.induct with
  | case1 => exact parseString_quote rest
  | case2 unit =>
    rw [quoteUnits, parseString_quoteUnit, reads, parseString_quote]
    rfl
  | case3 first second later pair ih =>
    rw [quoteUnits, if_pos pair, List.cons_append, parseString_pairChar pair, reads, ih]
    rfl
  | case4 first second later alone ih =>
    rw [quoteUnits, if_neg alone, List.append_assoc, parseString_quoteUnit, reads, ih]
    rfl

end Strings

/-! ## Objects -/

/-- The text of a member's value is read as that value. -/
def ReadsAs (text : List Char) (value : Json) : Prop :=
  ∀ fuel c rest, c = ',' ∨ c = '}' → parseValue (fuel + 1) (text ++ c :: rest) = some (value, c :: rest)

section Objects

variable {c next : Char}

theorem expect_self (mark : jsonSpace c = false) (rest : List Char) : expect c (c :: rest) = some rest := by
  rw [expect, List.dropWhile_cons_of_neg (by simp [mark])]
  exact if_pos rfl

theorem expect_other (mark : jsonSpace next = false) (other : next ≠ c) (rest : List Char) :
    expect c (next :: rest) = none := by
  rw [expect, List.dropWhile_cons_of_neg (by simp [mark])]
  exact if_neg other

theorem readsAs_quoted (units : Units) : ReadsAs (quoted units) (.string units) := by
  intro fuel c rest _
  have text : quoted units ++ c :: rest = '"' :: (quoteUnits units ++ '"' :: c :: rest) := by simp [quoted]
  rw [text, parseValue, List.dropWhile_cons_of_neg (by decide)]
  dsimp only
  rw [if_pos rfl, parseString_quoteUnits]
  rfl

theorem readsAs_one : ReadsAs ['1'] (.number false 1 0) := by
  rintro fuel c rest (rfl | rfl)
  · rfl
  · rfl

/-- A member is read up to the mark after it. -/
theorem parseMembers_member {text : List Char} {content : Json} (reads : ReadsAs text content) (key : Units) (fuel : Nat)
    (mark : c = ',' ∨ c = '}') (rest : List Char) :
    parseMembers (fuel + 2) (quoted key ++ ':' :: (text ++ c :: rest)) =
      (expect '}' (c :: rest)).elim
        ((expect ',' (c :: rest)).bind fun rest =>
          (parseMembers (fuel + 1) rest).map fun more => ((key, content) :: more.1, more.2))
        fun closed => some ([(key, content)], closed) := by
  have opened : quoted key ++ ':' :: (text ++ c :: rest) =
      '"' :: (quoteUnits key ++ '"' :: ':' :: (text ++ c :: rest)) := by simp [quoted]
  rw [opened, parseMembers, expect_self (by decide), Option.bind_some, parseString_quoteUnits, Option.bind_some,
    expect_self (by decide), Option.bind_some, reads fuel c rest mark, Option.bind_some]

/-- Members are read back. -/
theorem parseMembers_membersText {γ : Type} (name : γ → Units) {text : γ → List Char} {value : γ → Json} {fields : List γ}
    (some : fields ≠ []) (reads : ∀ field ∈ fields, ReadsAs (text field) (value field)) (fuel : Nat)
    (enough : fields.length < fuel) (rest : List Char) :
    parseMembers fuel (membersText (fields.map fun field => (name field, text field)) ++ '}' :: rest) =
      .some (fields.map fun field => (name field, value field), rest) := by
  induction fields generalizing fuel with
  | nil => exact absurd rfl some
  | cons field others ih =>
    obtain ⟨fuel, rfl⟩ : ∃ less, fuel = less + 2 := ⟨fuel - 2, by
      simp only [List.length_cons] at enough
      omega⟩
    have here := reads field List.mem_cons_self
    cases others with
    | nil =>
      have whole : membersText ([field].map fun field => (name field, text field)) ++ '}' :: rest =
          quoted (name field) ++ ':' :: (text field ++ '}' :: rest) := by simp [membersText]
      rw [whole, parseMembers_member here _ _ (.inr rfl), expect_self (by decide)]
      rfl
    | cons next later =>
      have whole : membersText ((field :: next :: later).map fun field => (name field, text field)) ++ '}' :: rest =
          quoted (name field) ++ ':' :: (text field ++ ',' ::
            (membersText ((next :: later).map fun field => (name field, text field)) ++ '}' :: rest)) := by
        simp [membersText]
      have more := ih (List.cons_ne_nil _ _) (fun other there => reads other (List.mem_cons_of_mem _ there)) (fuel + 1) (by
        simp only [List.length_cons] at enough ⊢
        omega)
      rw [whole, parseMembers_member here _ _ (.inl rfl), expect_other (by decide) (by decide), expect_self (by decide),
        Option.elim_none, Option.bind_some, more]
      rfl

/-- An object is read back. -/
theorem parseJson_objectText {γ : Type} (name : γ → Units) {text : γ → List Char} {value : γ → Json} {fields : List γ}
    (some : fields ≠ []) (reads : ∀ field ∈ fields, ReadsAs (text field) (value field)) :
    parseJson (objectText (fields.map fun field => (name field, text field))) =
      .some (.object (fromEntries (fields.map fun field => (name field, value field)))) := by
  obtain ⟨letters, opened⟩ : ∃ letters, membersText (fields.map fun field => (name field, text field)) = '"' :: letters := by
    cases fields with
    | nil => exact absurd rfl some
    | cons field others => cases others <;> exact ⟨_, rfl⟩
  have read := parseMembers_membersText name some reads (fields.length + 1) (Nat.lt_succ_self _) []
  refine parseJson_eq_some.mpr ⟨fields.length + 2, [], ?_, rfl⟩
  rw [objectText, List.cons_append, parseValue, List.dropWhile_cons_of_neg (by decide)]
  dsimp only
  rw [if_neg (by decide), if_pos rfl, read, opened, List.cons_append, expect_other (by decide) (by decide)]
  rfl

end Objects

end Machine
