/-!
# Blank characters

The Unicode property `White_Space` as a table, and trimming by it. A text is a list of
characters; `trim` drops the blank characters at both ends and nothing else.
-/

namespace SqlSession.Text

/-- The 25 characters with the Unicode property `White_Space`, as ranges of code points. -/
def blankRanges : List (Nat × Nat) :=
  [(0x09, 0x0D), (0x20, 0x20), (0x85, 0x85), (0xA0, 0xA0), (0x1680, 0x1680), (0x2000, 0x200A),
    (0x2028, 0x2029), (0x202F, 0x202F), (0x205F, 0x205F), (0x3000, 0x3000)]

/-- Membership in the table of blank characters. -/
def isBlank (c : Char) : Bool :=
  blankRanges.any fun r ↦ r.1 ≤ c.toNat && c.toNat ≤ r.2

/-- The text without its leading blank characters. -/
def trimStart (s : List Char) : List Char := s.dropWhile isBlank

/-- The text without its trailing blank characters. -/
def trimEnd : List Char → List Char
  | [] => []
  | c :: r =>
    match trimEnd r with
    | [] => if isBlank c then [] else [c]
    | t => c :: t

/-- The text without the blank characters at either end. -/
def trim (s : List Char) : List Char := trimEnd (trimStart s)

/-- A text of blank characters only, the empty text included. -/
def allBlank (s : List Char) : Bool := s.all isBlank

theorem allBlank_append (a b : List Char) : allBlank (a ++ b) = (allBlank a && allBlank b) :=
  List.all_append

theorem length_trimStart_le (s : List Char) : (trimStart s).length ≤ s.length :=
  s.dropWhile_sublist isBlank |>.length_le

theorem length_trimEnd_le (s : List Char) : (trimEnd s).length ≤ s.length := by
  induction s with
  | nil => simp [trimEnd]
  | cons c r ih =>
    simp only [trimEnd]
    split
    · split <;> simp
    · simpa using ih

theorem length_trim_le (s : List Char) : (trim s).length ≤ s.length :=
  Nat.le_trans (length_trimEnd_le _) (length_trimStart_le s)

/-- A character stays at the end for what stays behind it, or for not being blank. -/
theorem trimEnd_cons (c : Char) (r : List Char) :
    trimEnd (c :: r) =
      if trimEnd r = [] then if isBlank c then [] else [c] else c :: trimEnd r := by
  rw [trimEnd]
  cases trimEnd r <;> rfl

/-- The first text is trimmed if the second one is blank. -/
theorem trimEnd_append (a b : List Char) :
    trimEnd (a ++ b) = if trimEnd b = [] then trimEnd a else a ++ trimEnd b := by
  induction a with
  | nil =>
    split
    · next h => exact h
    · rfl
  | cons c a ih =>
    rw [List.cons_append, trimEnd_cons, ih]
    split
    · rw [trimEnd_cons]
    · next h => rw [if_neg (by simp [h]), List.cons_append]

/-- A text without blanks is not trimmed. -/
theorem trimEnd_of_unblank {s : List Char} (h : ∀ c ∈ s, isBlank c = false) : trimEnd s = s := by
  induction s with
  | nil => rfl
  | cons c r ih =>
    obtain ⟨hc, hr⟩ := List.forall_mem_cons.1 h
    rw [trimEnd_cons, ih hr]
    split
    · next hnil => rw [hnil, if_neg (by simp [hc])]
    · rfl

theorem trim_of_unblank {s : List Char} (h : ∀ c ∈ s, isBlank c = false) : trim s = s := by
  have hstart : trimStart s = s := by
    cases s with
    | nil => rfl
    | cons c r => exact List.dropWhile_cons_of_neg (by simp [h c (by simp)])
  rw [trim, hstart, trimEnd_of_unblank h]

theorem trimEnd_eq_nil_iff {s : List Char} : trimEnd s = [] ↔ allBlank s = true := by
  induction s with
  | nil => simp [trimEnd, allBlank]
  | cons c r ih =>
    rw [trimEnd_cons, allBlank, List.all_cons, ← allBlank]
    by_cases hr : trimEnd r = []
    · rw [if_pos hr, ih.1 hr, Bool.and_true]
      cases isBlank c <;> simp
    · simp [hr, mt ih.2 hr]

/-- What is trimmed at its end stays as it is. -/
theorem trimEnd_trimEnd (s : List Char) : trimEnd (trimEnd s) = trimEnd s := by
  induction s with
  | nil => rfl
  | cons c r ih =>
    rw [trimEnd_cons]
    by_cases hr : trimEnd r = []
    · rw [if_pos hr]
      cases hc : isBlank c <;> simp [trimEnd, hc]
    · rw [if_neg hr, trimEnd_cons, ih, if_neg hr]

/-- Both ends can be trimmed in either order. -/
theorem trimStart_trimEnd (s : List Char) : trimStart (trimEnd s) = trimEnd (trimStart s) := by
  induction s with
  | nil => rfl
  | cons c r ih =>
    unfold trimStart at ih ⊢
    rw [trimEnd_cons]
    cases hc : isBlank c with
    | true =>
      rw [List.dropWhile_cons_of_pos hc, ← ih]
      by_cases hr : trimEnd r = []
      · simp [hr]
      · rw [if_neg hr, List.dropWhile_cons_of_pos hc]
    | false =>
      have hn : ¬isBlank c = true := by simp [hc]
      rw [List.dropWhile_cons_of_neg hn, trimEnd_cons]
      split
      · simp [hc]
      · rw [List.dropWhile_cons_of_neg hn]

theorem trim_trimEnd (s : List Char) : trim (trimEnd s) = trim s := by
  rw [trim, trimStart_trimEnd, trimEnd_trimEnd, trim]

/-- Leading blanks are dropped. -/
theorem trimStart_append {a : List Char} (h : allBlank a = true) (b : List Char) :
    trimStart (a ++ b) = trimStart b :=
  List.dropWhile_append_of_pos (List.all_eq_true.1 h)

theorem trim_append {a : List Char} (h : allBlank a = true) (b : List Char) :
    trim (a ++ b) = trim b := by
  rw [trim, trimStart_append h, trim]

/-- Only blanks are dropped at the start. -/
theorem trimStart_split (s : List Char) : ∃ a, s = a ++ trimStart s ∧ allBlank a = true :=
  ⟨s.takeWhile isBlank, List.takeWhile_append_dropWhile.symm, List.all_takeWhile⟩

/-- Only blanks are dropped at the end. -/
theorem trimEnd_split (s : List Char) : ∃ b, s = trimEnd s ++ b ∧ allBlank b = true := by
  induction s with
  | nil => exact ⟨[], rfl, rfl⟩
  | cons c r ih =>
    obtain ⟨b, hr, hb⟩ := ih
    rw [trimEnd_cons]
    by_cases hnil : trimEnd r = []
    · rw [if_pos hnil]
      cases hc : isBlank c with
      | true =>
        exact ⟨c :: r, rfl, trimEnd_eq_nil_iff.1 (by rw [trimEnd_cons, if_pos hnil, if_pos hc])⟩
      | false => exact ⟨r, rfl, trimEnd_eq_nil_iff.1 hnil⟩
    · rw [if_neg hnil]
      exact ⟨b, congrArg (c :: ·) hr, hb⟩

/-- Only blanks are trimmed. -/
theorem trim_split (s : List Char) :
    ∃ a b, s = a ++ (trim s ++ b) ∧ allBlank a = true ∧ allBlank b = true := by
  obtain ⟨a, hs, ha⟩ := trimStart_split s
  obtain ⟨b, ht, hb⟩ := trimEnd_split (trimStart s)
  exact ⟨a, b, hs.trans (congrArg (a ++ ·) ht), ha, hb⟩

end SqlSession.Text
