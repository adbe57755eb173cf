import Mathlib.Data.List.TakeWhile
import LatexRenderer.Machine.Utf8

/-! # Decoding chunks

A decoder of octets that come in chunks. It holds back the octets of a sequence that a chunk cuts and decodes them
with what the next chunk begins with. However the octets are cut into chunks, the texts it answers make up the text of
all of them (`stringDecoder_spec`).
-/

namespace Machine

/-- The decoder: the octets held back, and how many more make up their sequence. -/
structure StringDecoder where
  missing : Nat
  buffer : Octets

namespace StringDecoder

/-- `new StringDecoder("utf8")`. -/
def new : StringDecoder := ⟨0, []⟩

/-- How many octets at the end of a chunk start a sequence that the chunk does not finish, and how many are missing.
More than three continuations are no part of a sequence. -/
def incomplete (data : Octets) : Nat × Nat :=
  match data.reverse.drop (data.reverse.takeWhile continuation).length with
  | [] => (0, 0)
  | lead :: _ =>
    if 4 ≤ (data.reverse.takeWhile continuation).length then (0, 0)
    else if sequenceLength lead ≤ (data.reverse.takeWhile continuation).length + 1 then (0, 0)
    else ((data.reverse.takeWhile continuation).length + 1,
      sequenceLength lead - ((data.reverse.takeWhile continuation).length + 1))

/-- A chunk, or what is left of it, where nothing is held back. -/
def fresh (data : Octets) : List Char × StringDecoder :=
  (utf8Text (data.take (data.length - (incomplete data).1)),
    ⟨(incomplete data).2, data.drop (data.length - (incomplete data).1)⟩)

/-- What a chunk begins with that continues the sequence held back. -/
def continued (decoder : StringDecoder) (chunk : Octets) : Octets :=
  (chunk.take decoder.missing).takeWhile continuation

/-- How many octets are missing after that. An octet that continues nothing ends the sequence. -/
def stillMissing (decoder : StringDecoder) (chunk : Octets) : Nat :=
  if (decoder.continued chunk).length < (chunk.take decoder.missing).length then 0
  else decoder.missing - (decoder.continued chunk).length

def write (decoder : StringDecoder) (chunk : Octets) : List Char × StringDecoder :=
  if decoder.missing = 0 then fresh chunk
  else if decoder.stillMissing chunk = 0 then
    (utf8Text (decoder.buffer ++ decoder.continued chunk) ++ (fresh (chunk.drop (decoder.continued chunk).length)).1,
      (fresh (chunk.drop (decoder.continued chunk).length)).2)
  else ([], ⟨decoder.stillMissing chunk, decoder.buffer ++ decoder.continued chunk⟩)

/-- `StringDecoder.prototype.end`. -/
def finish (decoder : StringDecoder) : List Char := utf8Text decoder.buffer

/-- The texts that chunks are answered with, and the decoder after them. -/
def writes (decoder : StringDecoder) : List Octets → List (List Char) × StringDecoder
  | [] => ([], decoder)
  | chunk :: rest => ((decoder.write chunk).1 :: ((decoder.write chunk).2.writes rest).1, ((decoder.write chunk).2.writes rest).2)

/-! ## What is held back -/

/-- The octets are the beginning of a sequence of which so many octets are missing. -/
structure Cut (missing : Nat) (octets : Octets) : Prop where
  waits : 0 < missing
  begins : ∃ lead conts, octets = lead :: conts ∧ continuation lead = false ∧
    (∀ octet ∈ conts, continuation octet = true) ∧ missing + (conts.length + 1) = sequenceLength lead

/-- Either nothing is held back and nothing is owed after the octets, or a sequence that is cut. -/
inductive Holds (decoder : StringDecoder) (front : Octets) : Prop
  | nothing (empty : decoder = new) (ground : (utf8Run .ground front).2 = .ground)
  | cut (cut : Cut decoder.missing decoder.buffer)

/-- The decoder has been fed octets and has answered a text, but for what it holds back. -/
structure Fed (decoder : StringDecoder) (octets : Octets) (text : List Char) : Prop where
  parts : ∃ front, octets = front ++ decoder.buffer ∧ text = utf8Text front ∧ Holds decoder front

/-- A text may be taken in parts between the octets. -/
inductive Parts (front back : Octets) : Prop
  | ground (ground : (utf8Run .ground front).2 = .ground)
  | lead (lead : UInt8) (rest : Octets) (begins : back = lead :: rest) (outside : continuation lead = false)

section Parts

variable {front back data body conts : Octets} {lead : UInt8} {missing : Nat}

theorem Parts.text (parts : Parts front (body ++ back)) :
    utf8Text (front ++ body) = utf8Text front ++ utf8Text body := by
  cases parts with
  | ground ground => exact utf8Text_append_of_ground ground body
  | lead lead rest begins outside =>
    cases body with
    | nil => rw [List.append_nil, show utf8Text [] = [] from rfl, List.append_nil]
    | cons octet later =>
      obtain ⟨rfl, _⟩ := List.cons.inj begins
      exact utf8Text_append_of_lead front outside later

/-- After octets that leave nothing owed on their own, nothing is owed. -/
theorem Parts.paid (parts : Parts front data) (ground : (utf8Run .ground data).2 = .ground) :
    (utf8Run .ground (front ++ data)).2 = .ground := by
  rw [utf8Run_append]
  cases parts with
  | ground before =>
    show (utf8Run (utf8Run .ground front).2 data).2 = .ground
    rw [before]
    exact ground
  | lead lead rest begins outside =>
    subst begins
    show (utf8Run (utf8Run .ground front).2 (lead :: rest)).2 = .ground
    rw [utf8Run_lead _ outside]
    exact ground

end Parts

/-! ## One chunk -/

section Chunk

variable {decoder : StringDecoder} {front data octets : Octets} {text : List Char}

/-- Octets end in continuations, and one that is none may stand before these. -/
theorem ends_continued (data : Octets) :
    ∃ conts, (∀ octet ∈ conts, continuation octet = true) ∧
      data.reverse.takeWhile continuation = conts.reverse ∧
      (data = conts ∧ data.reverse.drop (data.reverse.takeWhile continuation).length = [] ∨
        ∃ body lead, data = body ++ lead :: conts ∧ continuation lead = false ∧
          data.reverse.drop (data.reverse.takeWhile continuation).length = lead :: body.reverse) := by
  have split := List.takeWhile_append_dropWhile (p := continuation) (l := data.reverse)
  have dropped : data.reverse.drop (data.reverse.takeWhile continuation).length = data.reverse.dropWhile continuation := by
    conv_lhs => arg 2; rw [← split]
    exact List.drop_left
  rw [dropped]
  refine ⟨(data.reverse.takeWhile continuation).reverse, fun octet member =>
    List.mem_takeWhile_imp (List.mem_reverse.mp member), (List.reverse_reverse _).symm, ?_⟩
  cases rest : data.reverse.dropWhile continuation with
  | nil =>
    rw [rest, List.append_nil] at split
    exact .inl ⟨by rw [split, List.reverse_reverse], rfl⟩
  | cons lead later =>
    have outside : continuation lead = false := by
      have head := List.head?_dropWhile_not continuation data.reverse
      rw [rest] at head
      simpa using head
    refine .inr ⟨later.reverse, lead, ?_, outside, by rw [List.reverse_reverse]⟩
    rw [rest] at split
    have whole := congrArg List.reverse split
    rw [List.reverse_reverse, List.reverse_append, List.reverse_cons, List.append_assoc] at whole
    exact whole.symm

/-- What is held back of a chunk is the beginning of a sequence, or nothing, and then the chunk leaves nothing owed. -/
theorem incomplete_spec (data : Octets) :
    (incomplete data = (0, 0) ∧ (utf8Run .ground data).2 = .ground) ∨
      ∃ body rest missing, data = body ++ rest ∧ incomplete data = (rest.length, missing) ∧ Cut missing rest := by
  obtain ⟨conts, inside, same, ⟨whole, drop⟩ | ⟨body, lead, whole, outside, drop⟩⟩ := ends_continued data
  · refine .inl ⟨?_, ?_⟩
    · rw [incomplete, drop]
    · rw [whole]
      exact utf8Run_conts inside
  · have paid (enough : sequenceLength lead ≤ conts.length + 1) : (utf8Run .ground data).2 = .ground := by
      rw [whole, utf8Run_append]
      exact utf8Run_sequence _ outside inside enough
    rw [incomplete, drop, same, List.length_reverse]
    dsimp only
    split_ifs with many enough
    · have bound := sequenceLength_le lead
      exact .inl ⟨rfl, paid (by omega)⟩
    · exact .inl ⟨rfl, paid enough⟩
    · exact .inr ⟨body, lead :: conts, sequenceLength lead - (conts.length + 1), whole, rfl, by omega,
        lead, conts, rfl, outside, inside, by omega⟩

/-- A chunk that may be taken on its own. -/
theorem fresh_fed (parts : Parts front data) : Fed (fresh data).2 (front ++ data) (utf8Text front ++ (fresh data).1) := by
  rcases incomplete_spec data with ⟨none, paid⟩ | ⟨body, rest, missing, rfl, some, cut⟩
  · refine ⟨⟨front ++ data, ?_, ?_, .nothing ?_ (parts.paid paid)⟩⟩
    · simp [fresh, none]
    · simp only [fresh, none, Nat.sub_zero, List.take_length]
      rw [← List.append_nil data] at parts
      exact parts.text.symm
    · simp [fresh, none, new]
  · have taken : (body ++ rest).length - rest.length = body.length := by
      rw [List.length_append]
      omega
    refine ⟨⟨front ++ body, ?_, ?_, .cut ?_⟩⟩
    · simp [fresh, some]
    · simp only [fresh, some, taken, List.take_left]
      exact parts.text.symm
    · simp only [fresh, some, taken, List.drop_left]
      exact cut

theorem continued_prefix (decoder : StringDecoder) (chunk : Octets) : decoder.continued chunk <+: chunk :=
  (List.takeWhile_prefix _).trans (List.take_prefix _ _)

theorem continued_append (decoder : StringDecoder) (chunk : Octets) :
    decoder.continued chunk ++ chunk.drop (decoder.continued chunk).length = chunk :=
  (List.prefix_append_drop (decoder.continued_prefix chunk)).symm

theorem continued_inside (decoder : StringDecoder) (chunk : Octets) :
    ∀ octet ∈ decoder.continued chunk, continuation octet = true := fun _ => List.mem_takeWhile_imp

/-- Where a chunk does not go on with the sequence, what is left of it begins with an octet that continues nothing. -/
theorem continued_stops {decoder : StringDecoder} {chunk : Octets}
    (stops : (decoder.continued chunk).length < (chunk.take decoder.missing).length) :
    ∃ lead rest, chunk.drop (decoder.continued chunk).length = lead :: rest ∧ continuation lead = false := by
  have split := List.takeWhile_append_dropWhile (p := continuation) (l := chunk.take decoder.missing)
  cases left : (chunk.take decoder.missing).dropWhile continuation with
  | nil =>
    rw [left, List.append_nil] at split
    exact absurd (congrArg List.length split) (Nat.ne_of_lt stops)
  | cons lead rest =>
    have head := List.head?_dropWhile_not continuation (chunk.take decoder.missing)
    rw [left] at head split
    refine ⟨lead, rest ++ chunk.drop decoder.missing, ?_, by simpa using head⟩
    conv_lhs => arg 2; rw [← List.take_append_drop decoder.missing chunk, ← split, List.append_assoc]
    exact List.drop_left

/-- A chunk that finishes the sequence held back, or breaks it, may be taken on its own from there. -/
theorem Cut.parts (cut : Cut decoder.missing decoder.buffer) (front : Octets) {chunk : Octets}
    (done : decoder.stillMissing chunk = 0) :
    Parts (front ++ (decoder.buffer ++ decoder.continued chunk)) (chunk.drop (decoder.continued chunk).length) := by
  obtain ⟨waits, lead, conts, same, outside, inside, sum⟩ := cut
  rw [stillMissing] at done
  split_ifs at done with stops
  · obtain ⟨next, rest, drop, begins⟩ := continued_stops stops
    exact .lead next rest drop begins
  · apply Parts.ground
    rw [same, List.cons_append, utf8Run_append]
    apply utf8Run_sequence _ outside
    · intro octet member
      rcases List.mem_append.mp member with old | more
      · exact inside octet old
      · exact continued_inside _ _ octet more
    · rw [List.length_append]
      omega

/-- A chunk that does not finish the sequence held back is held back as well. -/
theorem Cut.extend (cut : Cut decoder.missing decoder.buffer) {chunk : Octets} (waits : decoder.stillMissing chunk ≠ 0) :
    decoder.continued chunk = chunk ∧ Cut (decoder.stillMissing chunk) (decoder.buffer ++ decoder.continued chunk) := by
  obtain ⟨_, lead, conts, same, outside, inside, sum⟩ := cut
  have positive := Nat.pos_of_ne_zero waits
  rw [stillMissing] at waits ⊢
  split_ifs at waits ⊢ with stops
  · exact absurd rfl waits
  · constructor
    · rw [List.length_take] at stops
      exact (decoder.continued_prefix chunk).eq_of_length_le (by omega)
    · refine ⟨by omega, lead, conts ++ decoder.continued chunk, by rw [same, List.cons_append], outside, ?_, ?_⟩
      · intro octet member
        rcases List.mem_append.mp member with old | more
        · exact inside octet old
        · exact continued_inside _ _ octet more
      · rw [List.length_append]
        omega

/-- A chunk. -/
theorem Fed.write (fed : Fed decoder octets text) (chunk : Octets) :
    Fed (decoder.write chunk).2 (octets ++ chunk) (text ++ (decoder.write chunk).1) := by
  obtain ⟨front, rfl, rfl, holds⟩ := fed
  cases holds with
  | nothing empty ground =>
    subst empty
    have step := fresh_fed (.ground ground : Parts front chunk)
    rwa [show front ++ StringDecoder.new.buffer = front from List.append_nil front]
  | cut cut =>
    have waits : decoder.missing ≠ 0 := Nat.pos_iff_ne_zero.mp cut.waits
    have held : utf8Text (front ++ (decoder.buffer ++ decoder.continued chunk)) =
        utf8Text front ++ utf8Text (decoder.buffer ++ decoder.continued chunk) := by
      obtain ⟨lead, conts, same, outside, _⟩ := cut.begins
      rw [same]
      exact utf8Text_append_of_lead front outside _
    rw [StringDecoder.write, if_neg waits]
    split_ifs with done
    · have step := fresh_fed (cut.parts front done)
      rw [held] at step
      simpa only [List.append_assoc, continued_append] using step
    · obtain ⟨whole, longer⟩ := cut.extend done
      refine ⟨front, ?_, List.append_nil _, .cut longer⟩
      rw [List.append_assoc, whole]

/-- Chunks. -/
theorem Fed.writes (fed : Fed decoder octets text) (chunks : List Octets) :
    Fed (decoder.writes chunks).2 (octets ++ chunks.flatten) (text ++ (decoder.writes chunks).1.flatten) := by
  induction chunks generalizing decoder octets text with
  | nil => simpa [StringDecoder.writes] using fed
  | cons chunk rest ih =>
    have later := ih (fed.write chunk)
    simpa only [StringDecoder.writes, List.flatten_cons, List.append_assoc] using later

/-- An end decodes what is held back. -/
theorem Fed.finish (fed : Fed decoder octets text) : text ++ decoder.finish = utf8Text octets := by
  obtain ⟨front, rfl, rfl, holds⟩ := fed
  cases holds with
  | nothing empty ground =>
    subst empty
    exact (utf8Text_append_of_ground ground _).symm
  | cut cut =>
    obtain ⟨lead, conts, same, outside, _⟩ := cut.begins
    rw [StringDecoder.finish, same]
    exact (utf8Text_append_of_lead front outside _).symm

end Chunk

/-- However octets are cut into chunks, the texts that the chunks are answered with make up the text of all of them. -/
theorem stringDecoder_spec (chunks : List Octets) :
    (new.writes chunks).1.flatten ++ (new.writes chunks).2.finish = utf8Text chunks.flatten := by
  have start : Fed new [] [] := ⟨[], rfl, rfl, .nothing rfl rfl⟩
  exact (start.writes chunks).finish

end StringDecoder

end Machine
