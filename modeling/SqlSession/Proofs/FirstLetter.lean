import SqlSession.Proofs.Attempt

/-!
# The first letter of an expanded text

The expansion of escape clauses copies blanks and everything else outside of clauses. A text that
does not start with a clause keeps its first letter, and with it what it is taken for.
-/

namespace SqlSession

namespace Sql

theorem isBlank_of_isQuote {c : Char} (h : isQuote c = true) : Text.isBlank c = false := by
  simp only [isQuote, Bool.or_eq_true, beq_iff_eq] at h
  rcases h with (rfl | rfl) | rfl <;> decide

/-- A blank neither opens a quote nor a clause. -/
theorem next_of_isBlank {c : Char} (h : Text.isBlank c = true) :
    Quoting.outside.next c = .outside ∧ c ≠ '\x7b' := by
  constructor
  · cases hq : isQuote c with
    | true => simp [isBlank_of_isQuote hq] at h
    | false => simp [Quoting.next, hq]
  · rintro rfl
    exact absurd h (by decide)

/-- A character that opens no clause is copied. -/
theorem expandFrom_cons {q : Quoting} {c : Char} {r t : List Char}
    (hc : ¬(q = .outside ∧ c = '\x7b')) (h : expandFrom q (c :: r) = .ok t) :
    ∃ t', expandFrom (q.next c) r = .ok t' ∧ t = c :: t' := by
  rw [expandFrom, if_neg hc] at h
  cases hr : expandFrom (q.next c) r with
  | error e => simp [hr, Except.map] at h
  | ok t' =>
    rw [hr] at h
    exact ⟨t', rfl, (Except.ok.inj h).symm⟩

/-- A text whose first letter opens no clause keeps its first letter when it is expanded. -/
theorem firstLetter?_expand {s t : List Char} (h : expand s = .ok t)
    (hb : firstLetter? s ≠ some '\x7b') : firstLetter? t = firstLetter? s := by
  unfold expand at h
  induction s generalizing t with
  | nil =>
    rw [expandFrom] at h
    rw [← Except.ok.inj h]
  | cons c r ih =>
    unfold firstLetter? at hb ih ⊢
    cases hc : Text.isBlank c with
    | true =>
      obtain ⟨hnext, hne⟩ := next_of_isBlank hc
      obtain ⟨t', ht', rfl⟩ := expandFrom_cons (fun hopen ↦ hne hopen.2) h
      rw [hnext] at ht'
      rw [List.find?_cons_of_neg (by simp [hc])] at hb
      rw [List.find?_cons_of_neg (by simp [hc]), List.find?_cons_of_neg (by simp [hc])]
      exact ih ht' hb
    | false =>
      rw [List.find?_cons_of_pos (by simp [hc])] at hb
      obtain ⟨t', -, rfl⟩ := expandFrom_cons (fun hopen ↦ hb (by rw [hopen.2])) h
      rw [List.find?_cons_of_pos (by simp [hc]), List.find?_cons_of_pos (by simp [hc])]

theorem firstLetter?_expandText {sql text : String} (h : expandText sql = .ok text)
    (hb : firstLetter? sql.toList ≠ some '\x7b') :
    firstLetter? text.toList = firstLetter? sql.toList := by
  unfold expandText at h
  cases he : expand sql.toList with
  | error e => simp [he, Except.map] at h
  | ok t =>
    rw [he] at h
    have ht : String.ofList t = text := Except.ok.inj h
    rw [← ht, String.toList_ofList]
    exact firstLetter?_expand he hb

/-- A text is taken for a query for its first letter. -/
theorem startsQuery_iff {sql : String} :
    startsQuery sql = true ↔
      firstLetter? sql.toList = some 'S' ∨ firstLetter? sql.toList = some 's' := by
  unfold startsQuery
  cases firstLetter? sql.toList <;> simp

end Sql

namespace Statement

/-- A text that is taken for a query keeps its first letter, whether its clauses are expanded or
not. -/
theorem firstLetter?_expanded {t : Statement} (ht : t.setup.escaper = Sql.expandText)
    {sql text : String} (h : t.expanded sql = .ok text) (hq : Sql.startsQuery sql = true) :
    Sql.firstLetter? text.toList = Sql.firstLetter? sql.toList := by
  unfold expanded at h
  split at h
  · rw [ht] at h
    refine Sql.firstLetter?_expandText h ?_
    rcases Sql.startsQuery_iff.1 hq with hs | hs <;> simp [hs]
  · rw [Except.ok.inj h]

end Statement

end SqlSession
