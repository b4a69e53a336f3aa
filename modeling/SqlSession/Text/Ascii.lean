/-!
# Text comparison by ASCII letters

Case folding that touches the letters `A` to `Z` only, and the search for one text inside
another.
-/

namespace SqlSession.Text

/-- The text with the ASCII capitals replaced by their small letters. -/
def lower (s : List Char) : List Char := s.map Char.toLower

/-- The text with the ASCII small letters replaced by their capitals. -/
def upper (s : List Char) : List Char := s.map Char.toUpper

/-- A character is its own small letter, or one of the 26 capitals. -/
theorem toLower_cases (c : Char) : c.toLower = c ∨ ∃ k < 26, c = Char.ofNat (65 + k) := by
  by_cases hc : c.val ≥ 'A'.val ∧ c.val ≤ 'Z'.val
  · have hrange : 65 ≤ c.toNat ∧ c.toNat ≤ 90 :=
      ⟨UInt32.le_iff_toNat_le.1 hc.1, UInt32.le_iff_toNat_le.1 hc.2⟩
    refine .inr ⟨c.toNat - 65, by omega, ?_⟩
    rw [Nat.add_sub_cancel' hrange.1, Char.ofNat_toNat]
  · exact .inl (dif_neg hc)

/-- Equality up to the case of ASCII letters. -/
def sameLetters (a b : List Char) : Bool := lower a == lower b

/-- The text `part` stands somewhere inside the text. -/
def contains (part : List Char) : List Char → Bool
  | [] => part.isEmpty
  | c :: r => part.isPrefixOf (c :: r) || contains part r

/-- The search on strings. -/
def containsText (part s : String) : Bool := contains part.toList s.toList

end SqlSession.Text
