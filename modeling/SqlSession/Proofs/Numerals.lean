import Mathlib.Data.List.Induction
import SqlSession.Text.Decimal

/-!
# Decimal numerals

A run of ASCII digits denotes a number by the places of its digits, and a numeral is such a run
behind at most one sign. The texts that are read as integers are exactly the numerals, each as the
integer that it denotes.
-/

namespace SqlSession.Decimal

/-- A run of digits and the number that it denotes: a further digit adds a place. -/
inductive Digits : List Char → Nat → Prop
  | one {c : Char} (digit : c.isDigit = true) : Digits [c] (c.toNat - 48)
  | more {s : List Char} {n : Nat} {c : Char} (front : Digits s n) (digit : c.isDigit = true) :
    Digits (s ++ [c]) (10 * n + (c.toNat - 48))

/-- A numeral and the integer that it denotes. -/
inductive Numeral : List Char → Int → Prop
  | unsigned {s : List Char} {n : Nat} (digits : Digits s n) : Numeral s n
  | plus {s : List Char} {n : Nat} (digits : Digits s n) : Numeral ('+' :: s) n
  | minus {s : List Char} {n : Nat} (digits : Digits s n) : Numeral ('-' :: s) (-n)

/-- A run of digits starts with a digit. -/
theorem Digits.eq_cons {s : List Char} {n : Nat} (h : Digits s n) :
    ∃ c r, s = c :: r ∧ c.isDigit = true := by
  induction h with
  | one digit => exact ⟨_, [], rfl, digit⟩
  | more _ _ ih =>
    obtain ⟨c, r, rfl, hc⟩ := ih
    exact ⟨c, _, rfl, hc⟩

/-- A run of digits holds nothing else. -/
theorem Digits.isDigit {s : List Char} {n : Nat} (h : Digits s n) : ∀ c ∈ s, c.isDigit = true := by
  induction h with
  | one digit => simpa using digit
  | more _ digit ih => simpa [or_imp, forall_and, digit] using ih

/-- No numeral is without a digit. -/
theorem Numeral.exists_digit {s : List Char} {n : Int} (h : Numeral s n) :
    ∃ c ∈ s, c.isDigit = true := by
  cases h with
  | unsigned digits =>
    obtain ⟨c, r, rfl, hc⟩ := digits.eq_cons
    exact ⟨c, by simp, hc⟩
  | plus digits =>
    obtain ⟨c, r, rfl, hc⟩ := digits.eq_cons
    exact ⟨c, by simp, hc⟩
  | minus digits =>
    obtain ⟨c, r, rfl, hc⟩ := digits.eq_cons
    exact ⟨c, by simp, hc⟩

/-- The last digit is read behind the number in front of it. -/
theorem value?_concat (s : List Char) (c : Char) :
    value? 0 (s ++ [c]) = (value? 0 s).bind fun n ↦
      if c.isDigit then some (10 * n + (c.toNat - 48)) else none := by
  rw [value?_append]
  rfl

/-- Nothing but a run of digits has a value, the empty text apart. -/
theorem value?_eq_some_iff {s : List Char} (hne : s ≠ []) {n : Nat} :
    value? 0 s = some n ↔ Digits s n := by
  constructor
  · intro h
    -- the value is built up from the left, so the last digit is taken off first
    induction s using List.reverseRecOn generalizing n with
    | nil => exact absurd rfl hne
    | append_singleton front c ih =>
      rw [value?_concat, Option.bind_eq_some_iff] at h
      obtain ⟨m, hm, hc⟩ := h
      split at hc
      · next hdigit =>
        obtain rfl := Option.some.inj hc
        cases front with
        | nil =>
          obtain rfl := Option.some.inj hm
          simpa using Digits.one hdigit
        | cons d r => exact (ih (by simp) hm).more hdigit
      · cases hc
  · intro h
    clear hne
    induction h with
    | one digit => simp [value?, digit]
    | more _ digit ih => simp [value?_concat, ih, digit]

theorem magnitude?_eq_some_iff {s : List Char} {n : Nat} : magnitude? s = some n ↔ Digits s n := by
  cases s with
  | nil =>
    constructor
    · intro h
      cases h
    · intro h
      obtain ⟨c, r, hs, -⟩ := h.eq_cons
      cases hs
  | cons c r => exact value?_eq_some_iff (by simp)

/-- The texts that are read as integers are the numerals. -/
theorem read?_eq_some_iff {s : List Char} {n : Int} : read? s = some n ↔ Numeral s n := by
  constructor
  · intro h
    unfold read? at h
    split at h <;>
      obtain ⟨m, hm, rfl⟩ := Option.map_eq_some_iff.1 h <;>
      have hdigits := magnitude?_eq_some_iff.1 hm
    · exact .minus hdigits
    · exact .plus hdigits
    · exact .unsigned hdigits
  · intro h
    cases h with
    | unsigned digits =>
      obtain ⟨c, r, rfl, hc⟩ := digits.eq_cons
      have hm := magnitude?_eq_some_iff.2 digits
      unfold read?
      split
      · next heq =>
        rw [(List.cons.inj heq).1] at hc
        cases hc
      · next heq =>
        rw [(List.cons.inj heq).1] at hc
        cases hc
      · rw [hm, Option.map_some]
    | plus digits => rw [read?, magnitude?_eq_some_iff.2 digits, Option.map_some]
    | minus digits => rw [read?, magnitude?_eq_some_iff.2 digits, Option.map_some]

/-- A numeral denotes one integer. -/
theorem Numeral.unique {s : List Char} {m n : Int} (hm : Numeral s m) (hn : Numeral s n) : m = n :=
  Option.some.inj ((read?_eq_some_iff.2 hm).symm.trans (read?_eq_some_iff.2 hn))

theorem toInt32?_eq_some_iff {k : Int} {n : Int32} : toInt32? k = some n ↔ n.toInt = k := by
  constructor
  · intro h
    unfold toInt32? at h
    split at h
    · next hrange =>
      rw [← Option.some.inj h]
      exact Int32.toInt_ofInt_of_le hrange.1 (Int.lt_add_one_of_le hrange.2)
    · cases h
  · rintro rfl
    exact toInt32?_toInt n

/-- The texts that are read as 32-bit integers are the numerals that denote one. -/
theorem readInt32?_eq_some_iff {s : List Char} {n : Int32} :
    readInt32? s = some n ↔ Numeral s n.toInt := by
  simp only [readInt32?, Option.bind_eq_some_iff, toInt32?_eq_some_iff, read?_eq_some_iff]
  constructor
  · rintro ⟨k, hk, rfl⟩
    exact hk
  · exact fun h ↦ ⟨n.toInt, h, rfl⟩

end SqlSession.Decimal
