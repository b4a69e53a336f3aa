import SqlSession.Proofs.ClauseExpansion

/-!
# Clauses that are not closed

The expansion looks for closing braces from many places: in the text, and in what is left of each
clause that it knows. All of these searches together come to one scan of the text. The expansion
fails if that scan ends within braces, and in no other case: no search counts below zero, and what
is left of a closed clause can always be expanded.
-/

namespace SqlSession.Sql

/-- How a search for a closing brace can end. -/
inductive Seek where
  /-- At the brace, with the rest of the text behind it. -/
  | closed (rest : List Char)
  /-- At the end of the text. -/
  | unclosed
  /-- At a brace that closes where none is open, so that the count of open braces has nothing left
  to be taken from. -/
  | below
  deriving DecidableEq

/-- The search for the brace that closes the first one of the text. It counts the braces that are
open, starting from none. -/
def seek (q : Quoting) (opened : Nat) : List Char → Seek
  | [] => .unclosed
  | c :: r =>
    if q = .outside ∧ c = '\x7d' then
      match opened with
      | 0 => .below
      | 1 => .closed r
      | n + 2 => seek q (n + 1) r
    else if q = .outside ∧ c = '\x7b' then seek q (opened + 1) r
    else seek (q.next c) opened r

/-- Behind the opening brace the search ends as the clause does. -/
theorem seek_eq (q : Quoting) (depth : Nat) (s : List Char) :
    seek q (depth + 1) s =
      match splitClause q depth s with
      | some p => .closed p.2
      | none => .unclosed := by
  induction s generalizing q depth with
  | nil => rfl
  | cons c r ih =>
    rw [seek.eq_def, splitClause.eq_def]
    dsimp only
    split
    · cases depth with
      | zero => rfl
      | succ d =>
        dsimp only
        rw [ih]
        cases splitClause q d r <;> rfl
    · split
      · rw [ih]
        cases splitClause q (depth + 1) r <;> rfl
      · rw [ih]
        cases splitClause (q.next c) depth r <;> rfl

/-- The search from an opening brace on ends as the clause does. -/
theorem seek_clause (r : List Char) :
    seek .outside 0 ('\x7b' :: r) =
      match splitClause .outside 0 r with
      | some p => .closed p.2
      | none => .unclosed :=
  seek_eq .outside 0 r

/-- From a position with the given quoting on, the expansion looks for the brace that closes the
first one of the text `u`. -/
inductive Searched : Quoting → List Char → List Char → Prop
  /-- A brace opens a clause. -/
  | here (r : List Char) : Searched .outside ('\x7b' :: r) ('\x7b' :: r)
  | copied {q : Quoting} {c : Char} {r u : List Char} (hopen : ¬(q = .outside ∧ c = '\x7b'))
      (h : Searched (q.next c) r u) : Searched q (c :: r) u
  /-- What is left of a known clause is expanded on its own. -/
  | within {r inner rest body u : List Char} {k : Clause}
      (hs : splitClause .outside 0 r = some (inner, rest))
      (hc : Clause.read? inner = some (k, body)) (h : Searched .outside body u) :
    Searched .outside ('\x7b' :: r) u
  | behind {r inner rest u : List Char} (hs : splitClause .outside 0 r = some (inner, rest))
      (h : Searched .outside rest u) : Searched .outside ('\x7b' :: r) u

/-- Every search starts at an opening brace. -/
theorem Searched.opening {q : Quoting} {s u : List Char} (h : Searched q s u) :
    ∃ r, u = '\x7b' :: r := by
  induction h with
  | here r => exact ⟨r, rfl⟩
  | copied _ _ ih => exact ih
  | within _ _ _ ih => exact ih
  | behind _ _ ih => exact ih

/-- A mapped result fails as the result does. -/
theorem map_eq_error_iff {ε α β : Type} {x : Except ε α} {f : α → β} {e : ε} :
    x.map f = .error e ↔ x = .error e := by
  cases x <;> simp [Except.map]

/-- A text that a scan leaves outside of quotes and braces can be expanded. -/
theorem expand_of_balanced {s : List Char} (h : Balanced s) : ∃ t, expand s = .ok t := by
  obtain ⟨t, ht, -⟩ := expandFrom_append h.run
  exact ⟨t, ht⟩

/-- What is left of a closed clause can be expanded. -/
theorem expand_body {r inner rest body : List Char} {k : Clause}
    (hs : splitClause .outside 0 r = some (inner, rest))
    (hc : Clause.read? inner = some (k, body)) : ∃ b, expand body = .ok b :=
  expand_of_balanced (Balanced.rest (splitClause_iff.1 hs).2 hc)

/-- Behind a closed clause the expansion fails as it does from there. -/
theorem expandFrom_closed_error_iff {r inner rest : List Char} {e : SqlError}
    (hs : splitClause .outside 0 r = some (inner, rest)) :
    expandFrom .outside ('\x7b' :: r) = .error e ↔ expandFrom .outside rest = .error e := by
  cases hc : Clause.read? inner with
  | none => rw [expandFrom_unknown hs hc, map_eq_error_iff]
  | some p =>
    obtain ⟨k, body⟩ := p
    obtain ⟨b, hb⟩ := expand_body hs hc
    rw [expand] at hb
    rw [expandFrom_known hs hc, hb, Except.bind, map_eq_error_iff]

/-- The expansion fails exactly where a scan of all the text ends within braces, and with one error
only. -/
theorem expandFrom_error_iff {q : Quoting} {s : List Char} {e : SqlError} :
    expandFrom q s = .error e ↔
      e = .invalidArgument .unterminatedEscape ∧ 0 < (Scan.run ⟨q, 0⟩ s).depth := by
  induction q, s using expandFrom.induct with
  | case1 q =>
    rw [expandFrom]
    simp [Scan.run]
  | case2 q c r hopen hs =>
    obtain ⟨rfl, rfl⟩ := hopen
    have hdepth : 0 < (Scan.run ⟨.outside, 0⟩ ('\x7b' :: r)).depth := depth_of_unclosed hs
    rw [expandFrom_unclosed hs, and_iff_left hdepth, Except.error.injEq, eq_comm]
  | case3 q c r hopen inner rest hs hc ih =>
    obtain ⟨rfl, rfl⟩ := hopen
    rw [expandFrom_closed_error_iff hs, ih, ← run_of_closed hs]
    rfl
  | case4 q c r hopen inner rest hs k body hc e' he ih =>
    obtain ⟨b, hb⟩ := expand_body hs hc
    rw [expand, he] at hb
    cases hb
  | case5 q c r hopen inner rest hs k body hc b hb ihBody ih =>
    obtain ⟨rfl, rfl⟩ := hopen
    rw [expandFrom_closed_error_iff hs, ih, ← run_of_closed hs]
    rfl
  | case6 q c r hopen ih =>
    have hnext : Scan.run ⟨q, 0⟩ (c :: r) = Scan.run ⟨q.next c, 0⟩ r := by
      by_cases hc : q = .outside ∧ c = '\x7d'
      · obtain ⟨rfl, rfl⟩ := hc
        rfl
      · rw [← Scan.next_of_other hc hopen]
        rfl
    rw [expandFrom, if_neg hopen, map_eq_error_iff, ih, hnext]

/-- The expansion fails exactly where one of its searches comes to the end of the text. -/
theorem expandFrom_error_iff_searched {q : Quoting} {s : List Char} :
    (∃ e, expandFrom q s = .error e) ↔ ∃ u, Searched q s u ∧ seek .outside 0 u = .unclosed := by
  constructor
  · rintro ⟨e, h⟩
    induction q, s using expandFrom.induct with
    | case1 q =>
      rw [expandFrom] at h
      cases h
    | case2 q c r hopen hs =>
      obtain ⟨rfl, rfl⟩ := hopen
      exact ⟨_, .here r, by rw [seek_clause, hs]⟩
    | case3 q c r hopen inner rest hs hc ih =>
      obtain ⟨rfl, rfl⟩ := hopen
      obtain ⟨u, hu, hseek⟩ := ih ((expandFrom_closed_error_iff hs).1 h)
      exact ⟨u, .behind hs hu, hseek⟩
    | case4 q c r hopen inner rest hs k body hc e' he ih =>
      obtain ⟨b, hb⟩ := expand_body hs hc
      rw [expand, he] at hb
      cases hb
    | case5 q c r hopen inner rest hs k body hc b hb ihBody ih =>
      obtain ⟨rfl, rfl⟩ := hopen
      obtain ⟨u, hu, hseek⟩ := ih ((expandFrom_closed_error_iff hs).1 h)
      exact ⟨u, .behind hs hu, hseek⟩
    | case6 q c r hopen ih =>
      rw [expandFrom, if_neg hopen, map_eq_error_iff] at h
      obtain ⟨u, hu, hseek⟩ := ih h
      exact ⟨u, .copied hopen hu, hseek⟩
  · rintro ⟨u, hu, hseek⟩
    induction hu with
    | here r =>
      rw [seek_clause] at hseek
      cases hs : splitClause .outside 0 r with
      | none => exact ⟨_, expandFrom_unclosed hs⟩
      | some p =>
        rw [hs] at hseek
        cases hseek
    | copied hopen _ ih =>
      obtain ⟨e, he⟩ := ih hseek
      exact ⟨e, by rw [expandFrom, if_neg hopen, map_eq_error_iff, he]⟩
    | within hs hc _ ih =>
      obtain ⟨e, he⟩ := ih hseek
      obtain ⟨b, hb⟩ := expand_body hs hc
      rw [expand, he] at hb
      cases hb
    | behind hs _ ih =>
      obtain ⟨e, he⟩ := ih hseek
      exact ⟨e, (expandFrom_closed_error_iff hs).2 he⟩

/-- A mapped expansion of a text fails as that of its characters does. -/
theorem expandText_error_iff {sql : String} {e : SqlError} :
    expandText sql = .error e ↔ expandFrom .outside sql.toList = .error e :=
  map_eq_error_iff

/-- The expansion of a text fails exactly if one scan of the whole text ends within braces, with one
error only. It fails exactly if one of its searches for a closing brace comes to the end of the text
that it is made in; none of these counts below zero, and where one comes to its brace, what is left
of the clause can be expanded. -/
theorem expandText_unclosed (sql : String) :
    (∀ e, expandText sql = .error e ↔
      e = .invalidArgument .unterminatedEscape ∧ 0 < (Scan.run {} sql.toList).depth) ∧
    ((∃ e, expandText sql = .error e) ↔
      ∃ u, Searched .outside sql.toList u ∧ seek .outside 0 u = .unclosed) ∧
    ∀ u, Searched .outside sql.toList u → seek .outside 0 u ≠ .below ∧
      ∀ inner rest, u = '\x7b' :: (inner ++ '\x7d' :: rest) → seek .outside 0 u = .closed rest →
        ∀ k body, Clause.read? inner = some (k, body) → ∃ b, expand body = .ok b := by
  refine ⟨fun e ↦ ?_, ?_, fun u hu ↦ ?_⟩
  · rw [expandText_error_iff, expandFrom_error_iff]
  · simp only [expandText_error_iff]
    exact expandFrom_error_iff_searched
  · obtain ⟨r, rfl⟩ := hu.opening
    rw [seek_clause]
    cases hs : splitClause .outside 0 r with
    | none => exact ⟨nofun, nofun⟩
    | some p =>
      obtain ⟨inner', rest'⟩ := p
      refine ⟨nofun, fun inner rest hr hclosed k body hc ↦ ?_⟩
      -- the rest behind the brace tells what stands in front of it
      have hrest : rest' = rest := Seek.closed.inj hclosed
      have hinner : inner' = inner := by
        have hsplit := (List.cons.inj hr).2
        rw [(splitClause_iff.1 hs).1, hrest] at hsplit
        exact List.append_cancel_right hsplit
      exact expand_body hs (hinner ▸ hc)

/-- The second clause of a text is not closed. The first one is, and so is the clause that is looked
for in what is left of the first one. -/
theorem expandText_unclosed_nested :
    let sql := "\x7bfn \x7bd '\x7d'\x7d\x7d \x7bx"
    let u := '\x7b' :: "d '\x7d'\x7d".toList
    expandText sql = .error (.invalidArgument .unterminatedEscape) ∧
      (∃ v, Searched .outside sql.toList v ∧ seek .outside 0 v = .unclosed) ∧
      Searched .outside sql.toList u ∧ seek .outside 0 u = .closed [] ∧
      ∃ b, expand "'\x7d'".toList = .ok b := by
  intro sql u
  obtain ⟨hfails, hsearched, hclosed⟩ := expandText_unclosed sql
  have hdepth : 0 < (Scan.run {} sql.toList).depth := by decide +kernel
  have herror := (hfails _).2 ⟨rfl, hdepth⟩
  have hsql : sql.toList = '\x7b' :: "fn \x7bd '\x7d'\x7d\x7d \x7bx".toList := by decide +kernel
  have hs : splitClause .outside 0 "fn \x7bd '\x7d'\x7d\x7d \x7bx".toList =
      some ("fn \x7bd '\x7d'\x7d".toList, " \x7bx".toList) := by decide +kernel
  have hc : Clause.read? "fn \x7bd '\x7d'\x7d".toList = some (.bare, u) := by decide +kernel
  have hu : Searched .outside sql.toList u := by
    rw [hsql]
    exact .within hs hc (.here _)
  have hseek : seek .outside 0 u = .closed [] := by decide +kernel
  have hbody := (hclosed u hu).2 "d '\x7d'".toList [] (by decide +kernel) hseek .bare
    "'\x7d'".toList (by decide +kernel)
  exact ⟨herror, hsearched.1 ⟨_, herror⟩, hu, hseek, hbody⟩

end SqlSession.Sql
