/-!
# Forgiving UTF-8

Bytes read as text in which every longest ill-formed piece becomes one replacement character.
The reader is a machine over single bytes: between characters, or inside one with some
continuation bytes still owed and bounds on the next one.
-/

namespace SqlSession.Utf8

/-- A character of several bytes of which some are still to come. -/
structure Pending where
  /-- Continuation bytes still owed, at least one. -/
  owed : Nat
  /-- The least value that the next byte may have. -/
  low : UInt8
  /-- The greatest value that the next byte may have. -/
  high : UInt8
  /-- The bits of the code point read so far. -/
  code : Nat
  deriving DecidableEq

/-- The character that stands for an ill-formed piece. -/
def replacement : Char := Char.ofNat 0xFFFD

/-- The first byte of a character: what it completes, and what it leaves pending. -/
def first (b : UInt8) : List Char × Option Pending :=
  if b < 0x80 then ([Char.ofNat b.toNat], none)
  else if b < 0xC2 then ([replacement], none)
  else if b < 0xE0 then ([], some ⟨1, 0x80, 0xBF, b.toNat % 32⟩)
  else if b == 0xE0 then ([], some ⟨2, 0xA0, 0xBF, 0⟩)
  else if b == 0xED then ([], some ⟨2, 0x80, 0x9F, 13⟩)
  else if b < 0xF0 then ([], some ⟨2, 0x80, 0xBF, b.toNat % 16⟩)
  else if b == 0xF0 then ([], some ⟨3, 0x90, 0xBF, 0⟩)
  else if b < 0xF4 then ([], some ⟨3, 0x80, 0xBF, b.toNat % 8⟩)
  else if b == 0xF4 then ([], some ⟨3, 0x80, 0x8F, 4⟩)
  else ([replacement], none)

/-- One byte: the characters it completes, and what is pending after it. A byte that cannot
continue the pending character ends it as ill-formed and starts anew. -/
def step : Option Pending → UInt8 → List Char × Option Pending
  | none, b => first b
  | some p, b =>
    if p.low ≤ b ∧ b ≤ p.high then
      let code := 64 * p.code + b.toNat % 64
      if p.owed ≤ 1 then ([Char.ofNat code], none)
      else ([], some ⟨p.owed - 1, 0x80, 0xBF, code⟩)
    else
      (replacement :: (first b).1, (first b).2)

/-- The rest of a text after some bytes of it. -/
def decodeFrom : Option Pending → List UInt8 → List Char
  | none, [] => []
  | some _, [] => [replacement]
  | p, b :: r => (step p b).1 ++ decodeFrom (step p b).2 r

/-- The text of the bytes, with a replacement character for every ill-formed piece. -/
def decode (bytes : List UInt8) : List Char := decodeFrom none bytes

/-- The bytes of a text of ASCII characters. -/
def ofAscii (s : List Char) : List UInt8 := s.map fun c ↦ UInt8.ofNat c.toNat

private theorem first_ascii {c : Char} (h : c.toNat < 128) :
    first (UInt8.ofNat c.toNat) = ([c], none) := by
  have hn : (UInt8.ofNat c.toNat).toNat = c.toNat := by
    rw [UInt8.toNat_ofNat']
    exact Nat.mod_eq_of_lt (by omega)
  have hb : UInt8.ofNat c.toNat < 0x80 := by
    rw [UInt8.lt_iff_toNat_lt, hn]
    exact h
  rw [first, if_pos hb, hn, Char.ofNat_toNat]

/-- Reading the bytes of an ASCII text gives the text. -/
theorem decode_ofAscii {s : List Char} (h : ∀ c ∈ s, c.toNat < 128) :
    decode (ofAscii s) = s := by
  unfold decode ofAscii
  induction s with
  | nil => rfl
  | cons c r ih =>
    have hc := first_ascii (h c (by simp))
    have hr := ih fun d hd ↦ h d (by simp [hd])
    simp only [List.map_cons, decodeFrom, step, hc, hr, List.cons_append, List.nil_append]

end SqlSession.Utf8
