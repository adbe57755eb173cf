import Mathlib.Data.List.TakeWhile
import LatexRenderer.Machine.Properties

/-! # JSON

The texts of JSON values and a parser for them. A string is the list of its UTF-16 code units, for an escape may name
half of a surrogate pair; a number is its digits and a power of ten, and the properties of an object are the last ones
of their names. The parser counts down a fuel, of which twice the length of the text is enough (`parseJson_eq_some`).
-/

namespace Machine

/-- A string, as its UTF-16 code units. -/
abbrev Units : Type := List UInt16

/-- A value. A number is `± digits · 10 ^ exponent`. -/
inductive Json where
  | null
  | bool (value : Bool)
  | number (negative : Bool) (digits : Nat) (exponent : Int)
  | string (units : Units)
  | array (elements : List Json)
  | object (members : List (Units × Json))

/-! ## Strings -/

/-- The code units of a character. -/
def charUnits (c : Char) : Units :=
  if c.toNat < 0x10000 then [UInt16.ofNat c.toNat]
  else [UInt16.ofNat (0xD800 + (c.toNat - 0x10000) / 0x400), UInt16.ofNat (0xDC00 + (c.toNat - 0x10000) % 0x400)]

/-- The value of a hexadecimal digit. -/
def hexValue (c : Char) : Option Nat :=
  if 48 ≤ c.toNat ∧ c.toNat ≤ 57 then some (c.toNat - 48)
  else if 97 ≤ c.toNat ∧ c.toNat ≤ 102 then some (c.toNat - 87)
  else if 65 ≤ c.toNat ∧ c.toNat ≤ 70 then some (c.toNat - 55)
  else none

/-- The unit of four hexadecimal digits. -/
def hexUnit (a b c d : Char) : Option UInt16 :=
  (hexValue a).bind fun a => (hexValue b).bind fun b => (hexValue c).bind fun c => (hexValue d).map fun d =>
    UInt16.ofNat (a * 4096 + b * 256 + c * 16 + d)

/-- The unit of a short escape. -/
def shortEscape (c : Char) : Option UInt16 :=
  if c = '"' then some 34
  else if c = '\\' then some 92
  else if c = '/' then some 47
  else if c = 'b' then some 8
  else if c = 'f' then some 12
  else if c = 'n' then some 10
  else if c = 'r' then some 13
  else if c = 't' then some 9
  else none

/-- A string, after the mark that opens it, and what follows it. -/
def parseString : List Char → Option (Units × List Char)
  | [] => none
  | c :: rest =>
    if c = '"' then some ([], rest)
    else if c = '\\' then
      match rest with
      | [] => none
      | escape :: rest =>
        if escape = 'u' then
          match rest with
          | a :: b :: c :: d :: rest =>
            (hexUnit a b c d).bind fun unit => (parseString rest).map fun read => (unit :: read.1, read.2)
          | _ => none
        else (shortEscape escape).bind fun unit => (parseString rest).map fun read => (unit :: read.1, read.2)
    else if c.toNat < 0x20 then none
    else (parseString rest).map fun read => (charUnits c ++ read.1, read.2)

/-! ## Numbers -/

/-- A decimal digit. -/
def numeral (c : Char) : Bool := decide (48 ≤ c.toNat ∧ c.toNat ≤ 57)

/-- The number that digits stand for. -/
def numeralsValue (digits : List Char) : Nat := digits.foldl (fun value c => value * 10 + (c.toNat - 48)) 0

/-- One digit or more, and what follows them. -/
def parseDigits (text : List Char) : Option (List Char × List Char) :=
  if text.takeWhile numeral = [] then none else some (text.takeWhile numeral, text.dropWhile numeral)

/-- The digits before the point: a zero stands alone. -/
def parseInteger : List Char → Option (List Char × List Char)
  | [] => none
  | c :: rest => if c = '0' then some (['0'], rest) else parseDigits (c :: rest)

/-- The digits after the point, if there is one. -/
def parseFraction : List Char → Option (List Char × List Char)
  | [] => some ([], [])
  | c :: rest => if c = '.' then parseDigits rest else some ([], c :: rest)

/-- The sign of an exponent and its digits. -/
def parseSigned : List Char → Option (Int × List Char)
  | [] => none
  | c :: rest =>
    if c = '-' then (parseDigits rest).map fun read => (-(numeralsValue read.1 : Int), read.2)
    else if c = '+' then (parseDigits rest).map fun read => ((numeralsValue read.1 : Int), read.2)
    else (parseDigits (c :: rest)).map fun read => ((numeralsValue read.1 : Int), read.2)

/-- The exponent, if there is one. -/
def parseExponent : List Char → Option (Int × List Char)
  | [] => some (0, [])
  | c :: rest => if c = 'e' ∨ c = 'E' then parseSigned rest else some (0, c :: rest)

/-- A number without its sign. -/
def parseMagnitude (negative : Bool) (text : List Char) : Option (Json × List Char) :=
  (parseInteger text).bind fun integer => (parseFraction integer.2).bind fun fraction =>
    (parseExponent fraction.2).map fun exponent =>
      (.number negative (numeralsValue (integer.1 ++ fraction.1)) (exponent.1 - fraction.1.length), exponent.2)

/-- A number. -/
def parseNumber : List Char → Option (Json × List Char)
  | [] => none
  | c :: rest => if c = '-' then parseMagnitude true rest else parseMagnitude false (c :: rest)

/-! ## Values -/

/-- Whitespace between tokens. -/
def jsonSpace (c : Char) : Bool := decide (c = ' ' ∨ c = '\t' ∨ c = '\n' ∨ c = '\r')

/-- A character that has to come next. -/
def expect (c : Char) (text : List Char) : Option (List Char) :=
  match text.dropWhile jsonSpace with
  | [] => none
  | next :: rest => if next = c then some rest else none

/-- A word. -/
def parseWord (word : String) (value : Json) (text : List Char) : Option (Json × List Char) :=
  if word.toList.isPrefixOf text then some (value, text.drop word.toList.length) else none

mutual

/-- A value and what follows it. -/
def parseValue : Nat → List Char → Option (Json × List Char)
  | 0, _ => none
  | fuel + 1, text =>
    match text.dropWhile jsonSpace with
    | [] => none
    | c :: rest =>
      if c = '"' then (parseString rest).map fun read => (.string read.1, read.2)
      else if c = '{' then
        (expect '}' rest).elim ((parseMembers fuel rest).map fun read => (.object (fromEntries read.1), read.2))
          fun closed => some (.object [], closed)
      else if c = '[' then
        (expect ']' rest).elim ((parseElements fuel rest).map fun read => (.array read.1, read.2))
          fun closed => some (.array [], closed)
      else if c = 't' then parseWord "true" (.bool true) (c :: rest)
      else if c = 'f' then parseWord "false" (.bool false) (c :: rest)
      else if c = 'n' then parseWord "null" .null (c :: rest)
      else parseNumber (c :: rest)

/-- The elements of an array, with the mark that closes it, and what follows. -/
def parseElements : Nat → List Char → Option (List Json × List Char)
  | 0, _ => none
  | fuel + 1, text => (parseValue fuel text).bind fun value =>
    (expect ']' value.2).elim
      ((expect ',' value.2).bind fun rest =>
        (parseElements fuel rest).map fun more => (value.1 :: more.1, more.2))
      fun closed => some ([value.1], closed)

/-- The members of an object, with the mark that closes it, and what follows. -/
def parseMembers : Nat → List Char → Option (List (Units × Json) × List Char)
  | 0, _ => none
  | fuel + 1, text => (expect '"' text).bind fun opened => (parseString opened).bind fun key =>
    (expect ':' key.2).bind fun rest => (parseValue fuel rest).bind fun value =>
      (expect '}' value.2).elim
        ((expect ',' value.2).bind fun rest =>
          (parseMembers fuel rest).map fun more => ((key.1, value.1) :: more.1, more.2))
        fun closed => some ([(key.1, value.1)], closed)

end

def parseJson (text : List Char) : Option Json :=
  (parseValue (2 * text.length + 1) text).bind fun read =>
    if read.2.dropWhile jsonSpace = [] then some read.1 else none

/-! ## The fuel -/

section Fuel

variable {text : List Char}

theorem length_parseString {read : Units × List Char} (done : parseString text = some read) :
    read.2.length < text.length := by
  fun_induction parseString text generalizing read with
  | case1 | case3 | case5 | case7 => cases done
  | case2 rest =>
    cases done
    exact Nat.lt_succ_self _
  | case4 a b c d rest _ ih =>
    obtain ⟨unit, _, done⟩ := Option.bind_eq_some_iff.mp done
    obtain ⟨later, read, rfl⟩ := Option.map_eq_some_iff.mp done
    have shorter := ih read
    simp only [List.length_cons]
    omega
  | case6 escape rest _ _ ih =>
    obtain ⟨unit, _, done⟩ := Option.bind_eq_some_iff.mp done
    obtain ⟨later, read, rfl⟩ := Option.map_eq_some_iff.mp done
    have shorter := ih read
    simp only [List.length_cons]
    omega
  | case8 c rest _ _ _ ih =>
    obtain ⟨later, read, rfl⟩ := Option.map_eq_some_iff.mp done
    have shorter := ih read
    simp only [List.length_cons]
    omega

theorem length_parseDigits {read : List Char × List Char} (done : parseDigits text = some read) :
    read.2.length < text.length := by
  unfold parseDigits at done
  split_ifs at done with none
  cases done
  have split := congrArg List.length (List.takeWhile_append_dropWhile (p := numeral) (l := text))
  have some := List.length_pos_iff.mpr none
  rw [List.length_append] at split
  show (text.dropWhile numeral).length < text.length
  omega

theorem length_expect {c : Char} {rest : List Char} (done : expect c text = some rest) : rest.length < text.length := by
  have shorter := List.length_dropWhile_le jsonSpace text
  unfold expect at done
  cases left : text.dropWhile jsonSpace with
  | nil =>
    rw [left] at done
    cases done
  | cons next later =>
    rw [left] at done shorter
    dsimp only at done
    split_ifs at done
    cases done
    exact shorter

theorem length_parseInteger {read : List Char × List Char} (done : parseInteger text = some read) :
    read.2.length < text.length := by
  cases text with
  | nil => cases done
  | cons c rest =>
    rw [parseInteger] at done
    split_ifs at done
    · cases done
      exact Nat.lt_succ_self _
    · exact length_parseDigits done

theorem length_parseFraction {read : List Char × List Char} (done : parseFraction text = some read) :
    read.2.length ≤ text.length := by
  cases text with
  | nil =>
    cases done
    exact Nat.le_refl _
  | cons c rest =>
    rw [parseFraction] at done
    split_ifs at done
    · exact Nat.le_succ_of_le (length_parseDigits done).le
    · cases done
      exact Nat.le_refl _

theorem length_parseSigned {read : Int × List Char} (done : parseSigned text = some read) :
    read.2.length < text.length := by
  cases text with
  | nil => cases done
  | cons c rest =>
    rw [parseSigned] at done
    split_ifs at done
    all_goals
      obtain ⟨digits, found, rfl⟩ := Option.map_eq_some_iff.mp done
      have shorter := length_parseDigits found
      simp only [List.length_cons] at shorter ⊢
      omega

theorem length_parseExponent {read : Int × List Char} (done : parseExponent text = some read) :
    read.2.length ≤ text.length := by
  cases text with
  | nil =>
    cases done
    exact Nat.le_refl _
  | cons c rest =>
    rw [parseExponent] at done
    split_ifs at done
    · exact Nat.le_succ_of_le (length_parseSigned done).le
    · cases done
      exact Nat.le_refl _

theorem length_parseMagnitude {negative : Bool} {read : Json × List Char}
    (done : parseMagnitude negative text = some read) : read.2.length < text.length := by
  unfold parseMagnitude at done
  obtain ⟨integer, first, done⟩ := Option.bind_eq_some_iff.mp done
  obtain ⟨fraction, second, done⟩ := Option.bind_eq_some_iff.mp done
  obtain ⟨exponent, third, rfl⟩ := Option.map_eq_some_iff.mp done
  have shorter := length_parseInteger first
  have short := length_parseFraction second
  have least := length_parseExponent third
  show exponent.2.length < text.length
  omega

theorem length_parseNumber {read : Json × List Char} (done : parseNumber text = some read) :
    read.2.length < text.length := by
  cases text with
  | nil => cases done
  | cons c rest =>
    rw [parseNumber] at done
    split_ifs at done
    · exact Nat.lt_succ_of_lt (length_parseMagnitude done)
    · exact length_parseMagnitude done

theorem length_parseWord {word : String} {value : Json} {read : Json × List Char} (letters : word.toList ≠ [])
    (done : parseWord word value text = some read) : read.2.length < text.length := by
  unfold parseWord at done
  split_ifs at done with there
  cases done
  have bound := (List.isPrefixOf_iff_prefix.mp there).length_le
  have positive := List.length_pos_iff.mpr letters
  show (text.drop word.toList.length).length < text.length
  rw [List.length_drop]
  omega

/-- What the parsers leave is shorter than what they were given. -/
structure Shortens (fuel : Nat) : Prop where
  value : ∀ {text read}, parseValue fuel text = some read → read.2.length < text.length
  elements : ∀ {text read}, parseElements fuel text = some read → read.2.length < text.length
  members : ∀ {text read}, parseMembers fuel text = some read → read.2.length < text.length

theorem Shortens.value_succ {fuel : Nat} (ih : Shortens fuel) {read : Json × List Char}
    (done : parseValue (fuel + 1) text = some read) : read.2.length < text.length := by
  have shorter := List.length_dropWhile_le jsonSpace text
  rw [parseValue] at done
  cases left : text.dropWhile jsonSpace with
  | nil =>
    rw [left] at done
    cases done
  | cons c rest =>
    rw [left] at done shorter
    rw [List.length_cons] at shorter
    dsimp only at done
    split_ifs at done
    · obtain ⟨later, found, rfl⟩ := Option.map_eq_some_iff.mp done
      have bound := length_parseString found
      show later.2.length < text.length
      omega
    · cases closed : expect '}' rest with
      | some closed' =>
        rw [closed] at done
        cases done
        have bound := length_expect closed
        show closed'.length < text.length
        omega
      | none =>
        rw [closed] at done
        obtain ⟨later, found, rfl⟩ := Option.map_eq_some_iff.mp done
        have bound := ih.members found
        show later.2.length < text.length
        omega
    · cases closed : expect ']' rest with
      | some closed' =>
        rw [closed] at done
        cases done
        have bound := length_expect closed
        show closed'.length < text.length
        omega
      | none =>
        rw [closed] at done
        obtain ⟨later, found, rfl⟩ := Option.map_eq_some_iff.mp done
        have bound := ih.elements found
        show later.2.length < text.length
        omega
    · exact Nat.lt_of_lt_of_le (length_parseWord (by decide) done) shorter
    · exact Nat.lt_of_lt_of_le (length_parseWord (by decide) done) shorter
    · exact Nat.lt_of_lt_of_le (length_parseWord (by decide) done) shorter
    · exact Nat.lt_of_lt_of_le (length_parseNumber done) shorter

theorem Shortens.elements_succ {fuel : Nat} (ih : Shortens fuel) {read : List Json × List Char}
    (done : parseElements (fuel + 1) text = some read) : read.2.length < text.length := by
  rw [parseElements] at done
  obtain ⟨value, found, done⟩ := Option.bind_eq_some_iff.mp done
  have shorter := ih.value found
  cases closed : expect ']' value.2 with
  | some closed' =>
    rw [closed] at done
    cases done
    have bound := length_expect closed
    show closed'.length < text.length
    omega
  | none =>
    rw [closed] at done
    obtain ⟨rest, comma, done⟩ := Option.bind_eq_some_iff.mp done
    obtain ⟨more, later, rfl⟩ := Option.map_eq_some_iff.mp done
    have bound := length_expect comma
    have least := ih.elements later
    show more.2.length < text.length
    omega

theorem Shortens.members_succ {fuel : Nat} (ih : Shortens fuel) {read : List (Units × Json) × List Char}
    (done : parseMembers (fuel + 1) text = some read) : read.2.length < text.length := by
  rw [parseMembers] at done
  obtain ⟨opened, mark, done⟩ := Option.bind_eq_some_iff.mp done
  obtain ⟨key, named, done⟩ := Option.bind_eq_some_iff.mp done
  obtain ⟨rest, colon, done⟩ := Option.bind_eq_some_iff.mp done
  obtain ⟨value, found, done⟩ := Option.bind_eq_some_iff.mp done
  have first := length_expect mark
  have second := length_parseString named
  have third := length_expect colon
  have fourth := ih.value found
  cases closed : expect '}' value.2 with
  | some closed' =>
    rw [closed] at done
    cases done
    have bound := length_expect closed
    show closed'.length < text.length
    omega
  | none =>
    rw [closed] at done
    obtain ⟨after, comma, done⟩ := Option.bind_eq_some_iff.mp done
    obtain ⟨more, later, rfl⟩ := Option.map_eq_some_iff.mp done
    have bound := length_expect comma
    have least := ih.members later
    show more.2.length < text.length
    omega

theorem shortens (fuel : Nat) : Shortens fuel := by
  induction fuel with
  | zero => constructor <;> intro text read never <;> cases never
  | succ fuel ih => exact ⟨ih.value_succ, ih.elements_succ, ih.members_succ⟩

/-- A fuel that is enough for a text is as good as another one. -/
structure EnoughFuel (fuel other : Nat) : Prop where
  value : ∀ text, 2 * text.length + 1 ≤ fuel → 2 * text.length + 1 ≤ other → parseValue fuel text = parseValue other text
  elements : ∀ text, 2 * text.length + 2 ≤ fuel → 2 * text.length + 2 ≤ other →
    parseElements fuel text = parseElements other text
  members : ∀ text, 2 * text.length + 2 ≤ fuel → 2 * text.length + 2 ≤ other →
    parseMembers fuel text = parseMembers other text

theorem bind_congr_some {α β : Type} {value : Option α} {first second : α → Option β}
    (same : ∀ found, value = some found → first found = second found) : value.bind first = value.bind second := by
  cases value with
  | none => rfl
  | some found => exact same found rfl

theorem EnoughFuel.value_succ {fuel other : Nat} (ih : EnoughFuel fuel other) (first : 2 * text.length + 1 ≤ fuel + 1)
    (second : 2 * text.length + 1 ≤ other + 1) : parseValue (fuel + 1) text = parseValue (other + 1) text := by
  have shorter := List.length_dropWhile_le jsonSpace text
  rw [parseValue, parseValue]
  cases left : text.dropWhile jsonSpace with
  | nil => rfl
  | cons c rest =>
    rw [left, List.length_cons] at shorter
    dsimp only
    rw [ih.members rest (by omega) (by omega), ih.elements rest (by omega) (by omega)]

theorem EnoughFuel.elements_succ {fuel other : Nat} (ih : EnoughFuel fuel other) (first : 2 * text.length + 2 ≤ fuel + 1)
    (second : 2 * text.length + 2 ≤ other + 1) : parseElements (fuel + 1) text = parseElements (other + 1) text := by
  rw [parseElements, parseElements, ih.value text (by omega) (by omega)]
  apply bind_congr_some
  intro value found
  have shorter := (shortens other).value found
  congr 1
  apply bind_congr_some
  intro rest comma
  have bound := length_expect comma
  rw [ih.elements rest (by omega) (by omega)]

theorem EnoughFuel.members_succ {fuel other : Nat} (ih : EnoughFuel fuel other) (first : 2 * text.length + 2 ≤ fuel + 1)
    (second : 2 * text.length + 2 ≤ other + 1) : parseMembers (fuel + 1) text = parseMembers (other + 1) text := by
  rw [parseMembers, parseMembers]
  apply bind_congr_some
  intro opened mark
  apply bind_congr_some
  intro key named
  apply bind_congr_some
  intro rest colon
  have shorter := length_expect mark
  have short := length_parseString named
  have bound := length_expect colon
  rw [ih.value rest (by omega) (by omega)]
  apply bind_congr_some
  intro value found
  have least := (shortens other).value found
  congr 1
  apply bind_congr_some
  intro after comma
  have last := length_expect comma
  rw [ih.members after (by omega) (by omega)]

theorem enoughFuel (fuel other : Nat) : EnoughFuel fuel other := by
  induction fuel generalizing other with
  | zero => constructor <;> intro text small <;> omega
  | succ fuel ih =>
    cases other with
    | zero => constructor <;> intro text _ small <;> omega
    | succ other =>
      exact ⟨fun text => (ih other).value_succ, fun text => (ih other).elements_succ, fun text => (ih other).members_succ⟩

/-- What is read with a fuel is read with more. -/
structure Persists (fuel more : Nat) : Prop where
  value : ∀ {text read}, parseValue fuel text = some read → parseValue more text = some read
  elements : ∀ {text read}, parseElements fuel text = some read → parseElements more text = some read
  members : ∀ {text read}, parseMembers fuel text = some read → parseMembers more text = some read

theorem Persists.value_succ {fuel more : Nat} (ih : Persists fuel more) {read : Json × List Char}
    (done : parseValue (fuel + 1) text = some read) : parseValue (more + 1) text = some read := by
  rw [parseValue] at done ⊢
  cases left : text.dropWhile jsonSpace with
  | nil =>
    rw [left] at done
    cases done
  | cons c rest =>
    rw [left] at done
    dsimp only at done ⊢
    -- Only an array and an object that are not empty are read with the fuel.
    split_ifs at done ⊢
    · exact done
    · cases close : expect '}' rest with
      | some closed => rwa [close] at done
      | none =>
        rw [close, Option.elim_none] at done
        obtain ⟨members, later, rfl⟩ := Option.map_eq_some_iff.mp done
        rw [Option.elim_none, ih.members later, Option.map_some]
    · cases close : expect ']' rest with
      | some closed => rwa [close] at done
      | none =>
        rw [close, Option.elim_none] at done
        obtain ⟨elements, later, rfl⟩ := Option.map_eq_some_iff.mp done
        rw [Option.elim_none, ih.elements later, Option.map_some]
    all_goals exact done

theorem Persists.elements_succ {fuel more : Nat} (ih : Persists fuel more) {read : List Json × List Char}
    (done : parseElements (fuel + 1) text = some read) : parseElements (more + 1) text = some read := by
  rw [parseElements] at done ⊢
  obtain ⟨value, found, done⟩ := Option.bind_eq_some_iff.mp done
  rw [ih.value found, Option.bind_some]
  cases close : expect ']' value.2 with
  | some closed => rwa [close] at done
  | none =>
    rw [close, Option.elim_none] at done
    obtain ⟨rest, comma, done⟩ := Option.bind_eq_some_iff.mp done
    obtain ⟨elements, later, rfl⟩ := Option.map_eq_some_iff.mp done
    rw [Option.elim_none, comma, Option.bind_some, ih.elements later, Option.map_some]

theorem Persists.members_succ {fuel more : Nat} (ih : Persists fuel more) {read : List (Units × Json) × List Char}
    (done : parseMembers (fuel + 1) text = some read) : parseMembers (more + 1) text = some read := by
  rw [parseMembers] at done ⊢
  obtain ⟨opened, mark, done⟩ := Option.bind_eq_some_iff.mp done
  obtain ⟨key, named, done⟩ := Option.bind_eq_some_iff.mp done
  obtain ⟨rest, colon, done⟩ := Option.bind_eq_some_iff.mp done
  obtain ⟨value, found, done⟩ := Option.bind_eq_some_iff.mp done
  rw [mark, Option.bind_some, named, Option.bind_some, colon, Option.bind_some, ih.value found, Option.bind_some]
  cases close : expect '}' value.2 with
  | some closed => rwa [close] at done
  | none =>
    rw [close, Option.elim_none] at done
    obtain ⟨after, comma, done⟩ := Option.bind_eq_some_iff.mp done
    obtain ⟨members, later, rfl⟩ := Option.map_eq_some_iff.mp done
    rw [Option.elim_none, comma, Option.bind_some, ih.members later, Option.map_some]

theorem persists {fuel more : Nat} (le : fuel ≤ more) : Persists fuel more := by
  induction fuel generalizing more with
  | zero => constructor <;> intro text read never <;> cases never
  | succ fuel ih =>
    obtain ⟨more, rfl⟩ : ∃ less, more = less + 1 := ⟨more - 1, by omega⟩
    have kept := ih (Nat.le_of_succ_le_succ le)
    exact ⟨kept.value_succ, kept.elements_succ, kept.members_succ⟩

/-- A text is read as a value if some fuel reads the value in it and only whitespace is left. -/
theorem parseJson_eq_some {value : Json} : parseJson text = some value ↔
    ∃ fuel rest, parseValue fuel text = some (value, rest) ∧ rest.dropWhile jsonSpace = [] := by
  rw [parseJson]
  constructor
  · intro done
    obtain ⟨⟨found, rest⟩, read, done⟩ := Option.bind_eq_some_iff.mp done
    split_ifs at done with whole
    cases done
    exact ⟨_, rest, read, whole⟩
  · rintro ⟨fuel, rest, read, whole⟩
    have same := (enoughFuel (max fuel (2 * text.length + 1)) (2 * text.length + 1)).value text (by omega) (by omega)
    rw [← same, (persists (Nat.le_max_left _ _)).value read, Option.bind_some, if_pos whole]

end Fuel

end Machine
