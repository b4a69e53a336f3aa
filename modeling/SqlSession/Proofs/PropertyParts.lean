import SqlSession.Config.Property

/-!
# The parts of a property string

A property string is split at the semicolons outside of braces and nowhere else, which determines
its parts. Two property strings that are joined by a semicolon have the parts of the first one and
then those of the second, if the first one leaves no brace open.
-/

namespace SqlSession.Property

/-- The brace depth behind a text that starts at the given one. -/
def depth (start : Nat) (s : List Char) : Nat := s.foldl depthAfter start

/-- The number of open braces behind a character; one that closes none does not count. -/
def openAfter (n : Nat) (c : Char) : Nat :=
  if c = '\x7b' then n + 1 else if c = '\x7d' then n - 1 else n

/-- The number of braces that a text leaves open. -/
def openBraces (s : List Char) : Nat := s.foldl openAfter 0

/-- Every semicolon of a text that starts at the given brace depth is inside braces. -/
def Held (start : Nat) (s : List Char) : Prop := ∀ u v, s = u ++ ';' :: v → depth start u ≠ 0

/-- A text that starts at the given brace depth splits into parts: the semicolons between them are
outside of braces, those in them inside. -/
inductive Splits : Nat → List Char → List (List Char) → Prop
  | last {start : Nat} {p : List Char} (held : Held start p) : Splits start p [p]
  | next {start : Nat} {p r : List Char} {ps : List (List Char)} (held : Held start p)
      (outside : depth start p = 0) (rest : Splits 0 r ps) : Splits start (p ++ ';' :: r) (p :: ps)

/-- The depth is not above the number of open braces. -/
theorem depth_le_openBraces (s : List Char) : depth 0 s ≤ openBraces s := by
  suffices hfrom : ∀ m n, m ≤ n → depth m s ≤ s.foldl openAfter n from hfrom 0 0 (Nat.le_refl 0)
  induction s with
  | nil => exact fun m n h ↦ h
  | cons c r ih =>
    intro m n h
    refine ih (depthAfter m c) (openAfter n c) ?_
    unfold depthAfter openAfter
    split
    · omega
    · split <;> omega

/-- The depth is the number of open braces as long as there are no more braces than are counted. -/
theorem depth_eq_openBraces {s : List Char} (h : s.count '\x7b' ≤ deepest) :
    depth 0 s = openBraces s := by
  suffices hfrom : ∀ n, n + s.count '\x7b' ≤ deepest → depth n s = s.foldl openAfter n from
    hfrom 0 (by omega)
  clear h
  induction s with
  | nil => exact fun n _ ↦ rfl
  | cons c r ih =>
    intro n h
    have hc : depthAfter n c = openAfter n c ∧ openAfter n c + r.count '\x7b' ≤ deepest := by
      unfold depthAfter openAfter
      by_cases ho : c = '\x7b'
      · rw [ho, List.count_cons_self] at h
        rw [if_pos ho, if_pos ho]
        omega
      · rw [List.count_cons_of_ne ho] at h
        rw [if_neg ho, if_neg ho]
        split <;> omega
    change depth (depthAfter n c) r = r.foldl openAfter (openAfter n c)
    rw [hc.1]
    exact ih _ hc.2

theorem partsFrom_semicolon (r : List Char) : partsFrom 0 (';' :: r) = [] :: partsFrom 0 r :=
  if_pos ⟨rfl, rfl⟩

/-- A character that does not separate belongs to the first part. -/
theorem partsFrom_cons {start : Nat} {c : Char} {r p : List Char} {ps : List (List Char)}
    (hc : ¬(c = ';' ∧ start = 0)) (hr : partsFrom (depthAfter start c) r = p :: ps) :
    partsFrom start (c :: r) = (c :: p) :: ps := by
  rw [partsFrom, if_neg hc, hr]

/-- The parts of a text go on in the text behind it: its last part is continued by the first one
there. -/
theorem partsFrom_append (start : Nat) (a : List Char) :
    ∃ front p, partsFrom start a = front ++ [p] ∧ ∀ b q back,
      partsFrom (depth start a) b = q :: back →
        partsFrom start (a ++ b) = front ++ (p ++ q) :: back := by
  induction a generalizing start with
  | nil => exact ⟨[], [], rfl, fun b q back h ↦ h⟩
  | cons c r ih =>
    obtain ⟨front, p, ha, hab⟩ := ih (depthAfter start c)
    by_cases hc : c = ';' ∧ start = 0
    · obtain ⟨rfl, rfl⟩ := hc
      refine ⟨[] :: front, p, ?_, fun b q back h ↦ ?_⟩
      · rw [partsFrom_semicolon]
        exact congrArg ([] :: ·) ha
      · rw [List.cons_append, partsFrom_semicolon]
        exact congrArg ([] :: ·) (hab b q back h)
    · cases front with
      | nil =>
        exact ⟨[], c :: p, partsFrom_cons hc ha,
          fun b q back h ↦ partsFrom_cons hc (hab b q back h)⟩
      | cons f front =>
        exact ⟨(c :: f) :: front, p, partsFrom_cons hc ha,
          fun b q back h ↦ partsFrom_cons hc (hab b q back h)⟩

/-- A semicolon outside of braces ends a part. -/
theorem partsFrom_join {start : Nat} {a : List Char} (h : depth start a = 0) (b : List Char) :
    partsFrom start (a ++ ';' :: b) = partsFrom start a ++ partsFrom 0 b := by
  obtain ⟨front, p, ha, hab⟩ := partsFrom_append start a
  rw [hab (';' :: b) [] (partsFrom 0 b) (by rw [h, partsFrom_semicolon]), ha]
  simp

theorem held_nil (start : Nat) : Held start [] := by
  intro u v h
  cases u <;> cases h

/-- A character in front of a text whose semicolons are inside braces is not one that separates. -/
theorem held_cons_iff {start : Nat} {c : Char} {r : List Char} :
    Held start (c :: r) ↔ ¬(c = ';' ∧ start = 0) ∧ Held (depthAfter start c) r := by
  constructor
  · intro h
    constructor
    · rintro ⟨rfl, rfl⟩
      exact h [] r rfl rfl
    · rintro u v rfl
      exact h (c :: u) v rfl
  · rintro ⟨hc, hr⟩ u v h
    cases u with
    | nil =>
      obtain ⟨rfl, -⟩ := List.cons.inj h
      exact fun h0 ↦ hc ⟨rfl, h0⟩
    | cons d u =>
      obtain ⟨rfl, hv⟩ := List.cons.inj h
      exact hr u v hv

/-- A text is split into its parts. -/
theorem splits_partsFrom (start : Nat) (s : List Char) : Splits start s (partsFrom start s) := by
  induction s generalizing start with
  | nil => exact .last (held_nil start)
  | cons c r ih =>
    by_cases hc : c = ';' ∧ start = 0
    · obtain ⟨rfl, rfl⟩ := hc
      rw [partsFrom_semicolon]
      exact .next (held_nil 0) rfl (ih 0)
    · have hr := ih (depthAfter start c)
      generalize hps : partsFrom (depthAfter start c) r = ps at hr
      cases hr with
      | last held =>
        rw [partsFrom_cons hc hps]
        exact .last (held_cons_iff.2 ⟨hc, held⟩)
      | next held outside rest =>
        rw [partsFrom_cons hc hps]
        exact .next (held_cons_iff.2 ⟨hc, held⟩) outside rest

/-- A text whose semicolons are all inside braces is one part. -/
theorem partsFrom_of_held {start : Nat} {s : List Char} (h : Held start s) :
    partsFrom start s = [s] := by
  induction s generalizing start with
  | nil => rfl
  | cons c r ih =>
    obtain ⟨hc, hr⟩ := held_cons_iff.1 h
    exact partsFrom_cons hc (ih hr)

/-- There is no other way to split a text. -/
theorem Splits.eq_partsFrom {start : Nat} {s : List Char} {ps : List (List Char)}
    (h : Splits start s ps) : ps = partsFrom start s := by
  induction h with
  | last held => exact (partsFrom_of_held held).symm
  | next held outside _ ih => rw [partsFrom_join outside, partsFrom_of_held held, ← ih]; rfl

/-- Joined by a semicolon outside of braces, two texts have the parts of both. -/
theorem parts_join {a : List Char} (h : depth 0 a = 0) (b : List Char) :
    parts (a ++ ';' :: b) = parts a ++ parts b := by
  rw [parts, partsFrom_join h, List.filter_append, parts, parts]

end SqlSession.Property
