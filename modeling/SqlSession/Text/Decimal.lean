/-!
# Decimal integers

`render` writes an integer with the fewest digits and a sign only below zero; `read?` takes an
optional sign and at least one ASCII digit, leading zeros included. `read?_render` says that
reading undoes writing.
-/

namespace SqlSession.Decimal

/-- The character of a digit below ten. -/
def digit (n : Nat) : Char := Char.ofNat (48 + n % 10)

/-- The decimal digits of a natural number, the first one not zero except for zero itself. -/
def digits (n : Nat) : List Char :=
  if n < 10 then [digit n] else digits (n / 10) ++ [digit n]

/-- The decimal text of an integer. -/
def render (n : Int) : List Char :=
  if n < 0 then '-' :: digits n.natAbs else digits n.natAbs

/-- The decimal text of an integer as a string. -/
def text (n : Int) : String := String.ofList (render n)

/-- The value of a run of ASCII digits read after the value `acc`. -/
def value? (acc : Nat) : List Char → Option Nat
  | [] => some acc
  | c :: r => if c.isDigit then value? (10 * acc + (c.toNat - 48)) r else none

/-- The value of a text of one or more ASCII digits. -/
def magnitude? : List Char → Option Nat
  | [] => none
  | s => value? 0 s

/-- The integer written as an optional sign and one or more ASCII digits. -/
def read? : List Char → Option Int
  | '-' :: r => (magnitude? r).map fun n : Nat ↦ -(n : Int)
  | '+' :: r => (magnitude? r).map fun n : Nat ↦ (n : Int)
  | s => (magnitude? s).map fun n : Nat ↦ (n : Int)

theorem digit_isDigit (n : Nat) : (digit n).isDigit = true := by
  have h : ∀ k < 10, (Char.ofNat (48 + k)).isDigit = true := by decide
  exact h _ (Nat.mod_lt _ (by decide))

theorem digit_toNat (n : Nat) : (digit n).toNat - 48 = n % 10 := by
  have h : ∀ k < 10, (Char.ofNat (48 + k)).toNat - 48 = k := by decide
  exact h _ (Nat.mod_lt _ (by decide))

theorem value?_append (acc : Nat) (a b : List Char) :
    value? acc (a ++ b) = (value? acc a).bind fun n ↦ value? n b := by
  induction a generalizing acc with
  | nil => rfl
  | cons c r ih =>
    simp only [List.cons_append, value?]
    split
    · exact ih _
    · rfl

theorem value?_digits (n : Nat) : value? 0 (digits n) = some n := by
  induction n using Nat.strongRecOn with
  | ind n ih =>
    rw [digits]
    split
    · next h => simp [value?, digit_isDigit, digit_toNat, Nat.mod_eq_of_lt h]
    · next h =>
      rw [value?_append, ih (n / 10) (by omega)]
      simp only [Option.bind_some, value?, digit_isDigit, digit_toNat, ↓reduceIte]
      congr 1
      omega

/-- No digit string is empty, and each starts with a digit. -/
theorem digits_eq_cons (n : Nat) : ∃ c r, digits n = c :: r ∧ c.isDigit = true := by
  induction n using Nat.strongRecOn with
  | ind n ih =>
    rw [digits]
    split
    · exact ⟨_, _, rfl, digit_isDigit n⟩
    · obtain ⟨c, r, h, hc⟩ := ih (n / 10) (by omega)
      exact ⟨c, r ++ [digit n], by rw [h]; rfl, hc⟩

theorem exists_of_mem_digits {n : Nat} {c : Char} (h : c ∈ digits n) :
    ∃ k < 10, c = Char.ofNat (48 + k) := by
  induction n using Nat.strongRecOn with
  | ind n ih =>
    rw [digits] at h
    split at h
    · exact ⟨n % 10, Nat.mod_lt n (by decide), List.mem_singleton.1 h⟩
    · rcases List.mem_append.1 h with h | h
      · exact ih (n / 10) (by omega) h
      · exact ⟨n % 10, Nat.mod_lt n (by decide), List.mem_singleton.1 h⟩

/-- No digit string but that of zero starts with a zero. -/
theorem eq_zero_of_head?_digits {n : Nat} (h : (digits n).head? = some '0') : n = 0 := by
  induction n using Nat.strongRecOn with
  | ind n ih =>
    rw [digits] at h
    split at h
    · next hn =>
      have hk : ∀ k < 10, Char.ofNat (48 + k) = '0' → k = 0 := by decide
      have hd : digit n = '0' := Option.some.inj h
      have hz := hk (n % 10) (Nat.mod_lt n (by decide)) hd
      omega
    · next hn =>
      obtain ⟨c, r, hd, -⟩ := digits_eq_cons (n / 10)
      have hz := ih (n / 10) (by omega) (by rw [hd] at h ⊢; exact h)
      omega

theorem magnitude?_digits (n : Nat) : magnitude? (digits n) = some n := by
  obtain ⟨c, r, h, -⟩ := digits_eq_cons n
  have hv := value?_digits n
  rw [h] at hv ⊢
  exact hv

/-- Reading undoes writing. -/
theorem read?_render (n : Int) : read? (render n) = some n := by
  unfold render
  split
  · next h =>
    have hn : -((n.natAbs : Nat) : Int) = n := by omega
    simp only [read?, magnitude?_digits, Option.map_some, hn]
  · next h =>
    obtain ⟨c, r, hd, hc⟩ := digits_eq_cons n.natAbs
    have hm := magnitude?_digits n.natAbs
    rw [hd] at hm ⊢
    have h1 : c ≠ '-' := by rintro rfl; simp at hc
    have h2 : c ≠ '+' := by rintro rfl; simp at hc
    unfold read?
    split
    · next heq => simp_all
    · next heq => simp_all
    · have hn : ((n.natAbs : Nat) : Int) = n := by omega
      simp only [hm, Option.map_some, hn]

/-- The 32-bit integer of a value in its range. -/
def toInt32? (n : Int) : Option Int32 :=
  if Int32.minValue.toInt ≤ n ∧ n ≤ Int32.maxValue.toInt then some (Int32.ofInt n) else none

/-- The 64-bit integer of a value in its range. -/
def toInt64? (n : Int) : Option Int64 :=
  if Int64.minValue.toInt ≤ n ∧ n ≤ Int64.maxValue.toInt then some (Int64.ofInt n) else none

/-- A 32-bit integer read from its decimal text. -/
def readInt32? (s : List Char) : Option Int32 := (read? s).bind toInt32?

/-- A 64-bit integer read from its decimal text. -/
def readInt64? (s : List Char) : Option Int64 := (read? s).bind toInt64?

theorem toInt32?_toInt (n : Int32) : toInt32? n.toInt = some n := by
  rw [toInt32?, if_pos ⟨n.minValue_le_toInt, n.toInt_le⟩, Int32.ofInt_toInt]

theorem toInt64?_toInt (n : Int64) : toInt64? n.toInt = some n := by
  rw [toInt64?, if_pos ⟨n.minValue_le_toInt, n.toInt_le⟩, Int64.ofInt_toInt]

theorem readInt32?_render (n : Int32) : readInt32? (render n.toInt) = some n := by
  rw [readInt32?, read?_render, Option.bind_some, toInt32?_toInt]

theorem readInt64?_render (n : Int64) : readInt64? (render n.toInt) = some n := by
  rw [readInt64?, read?_render, Option.bind_some, toInt64?_toInt]

end SqlSession.Decimal
