import SqlSession.Json.Reader
import SqlSession.Proofs.Numerals

/-!
# Texts of JSON values

A text spells a value if the reader takes that value from it wherever the text ends, in no more
steps than the text has characters. The two words for truth, `null`, decimal integers and quoted
words spell their values, and members between braces spell an object.
-/

namespace SqlSession.Json

open Decimal (Digits)

/-- An integer as JSON spells it: with a sign only below zero, and with a leading zero only for zero
itself. -/
inductive Literal : List Char → Int → Prop
  | nonneg {s : List Char} {n : Nat} (digits : Digits s n) (lead : s.head? = some '0' → s = ['0']) :
    Literal s n
  | neg {s : List Char} {n : Nat} (digits : Digits s n) (lead : s.head? = some '0' → s = ['0'])
      (pos : 0 < n) : Literal ('-' :: s) (-n)

/-- What follows does not go on with a number. -/
def Ends (rest : List Char) : Prop :=
  ∀ c ∈ rest.head?, c.isDigit = false ∧ c ≠ '.' ∧ c ≠ 'e' ∧ c ≠ 'E'

/-- The text is read as the value wherever it ends, in no more steps than it has characters. -/
def Spells (s : List Char) (v : Json) : Prop :=
  ∀ n rest, s.length ≤ n → Ends rest → readValue n (s ++ rest) = some (v, rest)

/-- The value of an integer. -/
def ofInt (n : Int) : Json := .number (decide (n < 0)) n.natAbs true

/-- A character that stands for itself between quotes. -/
def isPlain (c : Char) : Bool := c != '"' && c != '\\' && decide (32 ≤ c.toNat)

/-- The character starts a text, an array or an object, or stands before a value. -/
def opens (c : Char) : Bool := isSpace c || c == '"' || c == '[' || c == '\x7b'

theorem ends_nil : Ends [] := by simp [Ends]

theorem ends_cons {c : Char} (h : c.isDigit = false ∧ c ≠ '.' ∧ c ≠ 'e' ∧ c ≠ 'E')
    (rest : List Char) : Ends (c :: rest) := by
  intro d hd
  rw [← Option.some.inj hd]
  exact h

theorem skipSpace_cons {c : Char} (h : isSpace c = false) (r : List Char) :
    skipSpace (c :: r) = c :: r :=
  List.dropWhile_cons_of_neg (by simp [h])

/-- A text that spells a value is read as that value. -/
theorem Spells.read? {s : List Char} {v : Json} (h : Spells s v) : Json.read? s = some v := by
  have hv := h (2 * s.length + 2) [] (by omega) ends_nil
  rw [List.append_nil] at hv
  rw [Json.read?, hv]
  rfl

theorem int?_ofInt (n : Int) : (ofInt n).int? = some n := by
  unfold ofInt
  by_cases hn : n < 0
  · have hz : n.natAbs ≠ 0 := by omega
    have habs : -(n.natAbs : Int) = n := by omega
    rw [decide_eq_true hn]
    change (if n.natAbs = 0 then none else some (-(n.natAbs : Int))) = some n
    rw [if_neg hz, habs]
  · have habs : (n.natAbs : Int) = n := by omega
    rw [decide_eq_false hn]
    exact congrArg some habs

section Scalars

variable {rest : List Char}

theorem readFraction_of_ends (h : Ends rest) : readFraction rest = some (false, rest) := by
  unfold readFraction
  split
  · next r => exact absurd rfl (h '.' rfl).2.1
  · rfl

theorem readExponent_of_ends (h : Ends rest) : readExponent rest = some (false, rest) := by
  unfold readExponent
  split
  · next r => exact absurd rfl (h 'e' rfl).2.2.1
  · next r => exact absurd rfl (h 'E' rfl).2.2.2
  · rfl

/-- Digits are read up to the first character that is none. -/
theorem readDigits_digits {s : List Char} {n : Nat} (hs : Digits s n) (h : Ends rest) :
    readDigits (s ++ rest) = some (s, rest) := by
  have hstop : rest.takeWhile Char.isDigit = [] ∧ rest.dropWhile Char.isDigit = rest := by
    cases rest with
    | nil => exact ⟨rfl, rfl⟩
    | cons c r =>
      have hc : ¬c.isDigit = true := by simp [(h c rfl).1]
      exact ⟨List.takeWhile_cons_of_neg hc, List.dropWhile_cons_of_neg hc⟩
  obtain ⟨c, r, hd, -⟩ := hs.eq_cons
  rw [readDigits, List.takeWhile_append_of_pos hs.isDigit, List.dropWhile_append_of_pos hs.isDigit,
    hstop.1, hstop.2, List.append_nil, if_neg (by simp [hd])]

/-- Digits without a leading zero are read as the number that they denote. -/
theorem readMagnitude_digits (negative : Bool) {s : List Char} {n : Nat} (hs : Digits s n)
    (lead : s.head? = some '0' → s = ['0']) (h : Ends rest) :
    readMagnitude negative (s ++ rest) = some (.number negative n true, rest) := by
  have hlead : ¬(s.head? = some '0' ∧ s ≠ ['0']) := fun hz ↦ hz.2 (lead hz.1)
  simp [readMagnitude, readDigits_digits hs h, hlead, Decimal.magnitude?_eq_some_iff.2 hs,
    readFraction_of_ends h, readExponent_of_ends h]

theorem ne_of_isDigit {c d : Char} (hc : c.isDigit = true) (hd : d.isDigit = false) : c ≠ d := by
  rintro rfl
  rw [hc] at hd
  cases hd

/-- A digit starts nothing but a number without a sign. -/
theorem readScalar_of_isDigit {c : Char} (h : c.isDigit = true) (r : List Char) :
    readScalar (c :: r) = readMagnitude false (c :: r) := by
  unfold readScalar
  split
  · next heq => exact absurd (List.cons.inj heq).1 (ne_of_isDigit h rfl)
  · next heq => exact absurd (List.cons.inj heq).1 (ne_of_isDigit h rfl)
  · next heq => exact absurd (List.cons.inj heq).1 (ne_of_isDigit h rfl)
  · unfold readNumber
    split
    · next heq => exact absurd (List.cons.inj heq).1 (ne_of_isDigit h rfl)
    · rfl

theorem opens_of_isDigit {c : Char} (h : c.isDigit = true) : opens c = false := by
  have hne : ∀ d : Char, d.isDigit = false → c ≠ d := fun _ ↦ ne_of_isDigit h
  simp [opens, isSpace, hne ' ' rfl, hne '\t' rfl, hne '\n' rfl, hne '\r' rfl, hne '"' rfl,
    hne '[' rfl, hne '\x7b' rfl]

/-- What starts neither a text nor an array nor an object is read as a scalar. -/
theorem readValue_scalar {c : Char} (h : opens c = false) (n : Nat) (r : List Char) :
    readValue (n + 1) (c :: r) = readScalar (c :: r) := by
  simp only [opens, Bool.or_eq_false_iff, beq_eq_false_iff_ne] at h
  obtain ⟨⟨⟨hspace, hquote⟩, hbracket⟩, hbrace⟩ := h
  rw [readValue, skipSpace_cons hspace]
  split
  · next heq => exact absurd (List.cons.inj heq).1 hquote
  · next heq => exact absurd (List.cons.inj heq).1 hbracket
  · next heq => exact absurd (List.cons.inj heq).1 hbrace
  · rfl

/-- What is read as a scalar in one step is spelled. -/
theorem spells_scalar {c : Char} {r : List Char} {v : Json} (hc : opens c = false)
    (h : ∀ rest, Ends rest → readScalar (c :: (r ++ rest)) = some (v, rest)) :
    Spells (c :: r) v := by
  intro n rest hn hrest
  obtain ⟨m, rfl⟩ := Nat.exists_eq_add_of_le' (Nat.le_trans (Nat.le_add_left 1 r.length) hn)
  rw [List.cons_append, readValue_scalar hc, h rest hrest]

theorem spells_null : Spells "null".toList .null :=
  spells_scalar (by decide) fun _ _ ↦ rfl

theorem spells_bool (b : Bool) :
    Spells (if b then "true".toList else "false".toList) (.bool b) := by
  cases b with
  | true => exact spells_scalar (by decide) fun _ _ ↦ rfl
  | false => exact spells_scalar (by decide) fun _ _ ↦ rfl

/-- An integer as JSON spells it is read as that integer. -/
theorem spells_literal {s : List Char} {n : Int} (h : Literal s n) : Spells s (ofInt n) := by
  cases h with
  | @nonneg _ m digits lead =>
    have hvalue : ofInt m = .number false m true := by simp [ofInt]
    rw [hvalue]
    obtain ⟨c, r, rfl, hc⟩ := digits.eq_cons
    refine spells_scalar (opens_of_isDigit hc) fun rest h ↦ ?_
    rw [readScalar_of_isDigit hc]
    exact readMagnitude_digits false digits lead h
  | @neg _ m digits lead pos =>
    have hvalue : ofInt (-m) = .number true m true := by simp [ofInt, pos]
    rw [hvalue]
    exact spells_scalar (by decide) fun rest h ↦ readMagnitude_digits true digits lead h

/-- The decimal text of an integer is as JSON spells it. -/
theorem literal_render (n : Int) : Literal (Decimal.render n) n := by
  have hdigits : Digits (Decimal.digits n.natAbs) n.natAbs :=
    Decimal.magnitude?_eq_some_iff.1 (Decimal.magnitude?_digits n.natAbs)
  have hlead (hz : (Decimal.digits n.natAbs).head? = some '0') :
      Decimal.digits n.natAbs = ['0'] := by
    rw [Decimal.eq_zero_of_head?_digits hz]
    decide +kernel
  unfold Decimal.render
  split
  · next hn =>
    have hneg := Literal.neg hdigits hlead (by omega)
    have hvalue : -(n.natAbs : Int) = n := by omega
    rwa [hvalue] at hneg
  · next hn =>
    have hnonneg := Literal.nonneg hdigits hlead
    have hvalue : (n.natAbs : Int) = n := by omega
    rwa [hvalue] at hnonneg

end Scalars

section Texts

variable {w : List Char}

theorem readPieces_plain (h : w.all isPlain = true) (rest : List Char) :
    readPieces (w ++ '"' :: rest) = some (w.map .char, rest) := by
  induction w with
  | nil => rfl
  | cons c r ih =>
    rw [List.all_cons, Bool.and_eq_true] at h
    have hr := ih h.2
    have hc := h.1
    simp only [isPlain, Bool.and_eq_true, bne_iff_ne, decide_eq_true_eq] at hc
    obtain ⟨⟨hquote, hslash⟩, hcontrol⟩ := hc
    have hn : ¬(c.toNat < 32 ∨ c = '\\') := by
      rintro (hlt | heq)
      · omega
      · exact hslash heq
    rw [List.cons_append]
    unfold readPieces
    split <;> simp_all

theorem joinPieces_chars (w : List Char) : joinPieces (w.map .char) = some w := by
  induction w with
  | nil => rfl
  | cons c r ih => rw [List.map_cons, joinPieces, ih, Option.map_some]

/-- A text of plain characters is read up to its closing quote. -/
theorem readText_plain (h : w.all isPlain = true) (rest : List Char) :
    readText (w ++ '"' :: rest) = some (some w, rest) := by
  rw [readText, readPieces_plain h, Option.map_some, joinPieces_chars]

/-- A word of plain characters between quotes spells that word. -/
theorem spells_text (h : w.all isPlain = true) : Spells ('"' :: w ++ ['"']) (.text (some w)) := by
  intro n rest hn _
  obtain ⟨m, rfl⟩ := Nat.exists_eq_add_of_le' (show 1 ≤ n by simp at hn; omega)
  simp (disch := decide) [readValue, skipSpace_cons, readText_plain h]

end Texts

/-- A member of an object with the text of its value. -/
structure Member where
  name : List Char
  text : List Char
  value : Json

namespace Member

/-- The text of a member. -/
def chars (m : Member) : List Char := '"' :: m.name ++ ['"', ':'] ++ m.text

/-- The text of the members of an object. -/
def listChars (ms : List Member) : List Char := List.intercalate [','] (ms.map chars)

/-- The name stands for itself, and the text spells the value. -/
structure Sound (m : Member) : Prop where
  name : m.name.all isPlain = true
  value : Spells m.text m.value

variable {m : Member} {n : Nat}

theorem length_chars (m : Member) : m.chars.length = m.name.length + m.text.length + 3 := by
  simp [chars]
  omega

/-- A member that another one follows. -/
theorem Sound.readMembers_comma (h : m.Sound) (hn : m.text.length ≤ n) (rest : List Char) :
    readMembers (n + 1) (m.chars ++ ',' :: rest) =
      (readMembers n rest).map fun p ↦ ((some m.name, m.value) :: p.1, p.2) := by
  have hvalue := h.value n (',' :: rest) hn (ends_cons (by decide) rest)
  simp (disch := decide) [readMembers, chars, skipSpace_cons, readText_plain h.name, hvalue]

/-- The last member of an object. -/
theorem Sound.readMembers_brace (h : m.Sound) (hn : m.text.length ≤ n) (rest : List Char) :
    readMembers (n + 1) (m.chars ++ '\x7d' :: rest) = some ([(some m.name, m.value)], rest) := by
  have hvalue := h.value n ('\x7d' :: rest) hn (ends_cons (by decide) rest)
  simp (disch := decide) [readMembers, chars, skipSpace_cons, readText_plain h.name, hvalue]

/-- Members are read in their order up to the brace. -/
theorem readMembers_listChars {ms : List Member} (hne : ms ≠ []) (h : ∀ m ∈ ms, m.Sound)
    (hn : (listChars ms).length ≤ n) (rest : List Char) :
    readMembers n (listChars ms ++ '\x7d' :: rest) =
      some (ms.map fun m ↦ (some m.name, m.value), rest) := by
  induction ms generalizing n with
  | nil => exact absurd rfl hne
  | cons m ms ih =>
    have hm := h m (by simp)
    have hlen := m.length_chars
    cases ms with
    | nil =>
      have hchars : listChars [m] = m.chars := List.intercalate_singleton
      rw [hchars] at hn ⊢
      obtain ⟨k, rfl⟩ := Nat.exists_eq_add_of_le' (show 1 ≤ n by omega)
      exact hm.readMembers_brace (by omega) rest
    | cons m' ms =>
      have hchars : listChars (m :: m' :: ms) = m.chars ++ ',' :: listChars (m' :: ms) := by
        simp [listChars, List.intercalate_cons_cons]
      rw [hchars] at hn ⊢
      rw [List.length_append, List.length_cons] at hn
      obtain ⟨k, rfl⟩ := Nat.exists_eq_add_of_le' (show 1 ≤ n by omega)
      rw [List.append_assoc, List.cons_append, hm.readMembers_comma (by omega),
        ih (by simp) (fun x hx ↦ h x (by simp [hx])) (by omega)]
      rfl

/-- The text of members starts with a quote. -/
theorem listChars_cons (m : Member) (ms : List Member) :
    ∃ r, listChars (m :: ms) = '"' :: r := by
  cases ms <;> simp [listChars, chars, List.intercalate_cons_cons]

end Member

/-- Members between braces spell an object. -/
theorem spells_object {ms : List Member} (h : ∀ m ∈ ms, m.Sound) :
    Spells ('\x7b' :: Member.listChars ms ++ ['\x7d'])
      (.object (ms.map fun m ↦ (some m.name, m.value))) := by
  intro n rest hn _
  obtain ⟨k, rfl⟩ := Nat.exists_eq_add_of_le' (show 1 ≤ n by simp at hn; omega)
  have hopen : skipSpace ('\x7b' :: Member.listChars ms ++ ['\x7d'] ++ rest) =
      '\x7b' :: (Member.listChars ms ++ '\x7d' :: rest) := by
    simp (disch := decide) [skipSpace_cons]
  rw [readValue, hopen]
  cases ms with
  | nil => rfl
  | cons m ms =>
    have hread := Member.readMembers_listChars (n := k) (by simp) h (by simp at hn; omega) rest
    obtain ⟨r, hr⟩ := Member.listChars_cons m ms
    rw [hr, List.cons_append] at hread ⊢
    exact congrArg (Option.map fun p ↦ (object p.1, p.2)) hread

end SqlSession.Json
