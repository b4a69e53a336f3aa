import SqlSession.Error
import SqlSession.Sql.Quoting
import SqlSession.Text.Ascii
import SqlSession.Text.Blank

/-!
# Escape clauses

SQL text may hold clauses in braces, such as a date literal or a call, that are written the
same way for every server. `expand` replaces each by the text that the server reads: the
clauses for dates, times, functions and outer joins lose their braces and keyword, a call and
an escape character keep a keyword of their own, and an unknown clause stays as it is. Clauses
nest. Quoted text is never touched.

Specification: §10.7.
-/

namespace SqlSession.Sql

/-- The text up to the brace that closes an open clause, and the text behind that brace.
`depth` counts the clauses that have been opened on the way. Spec §10.7, `find_closing_brace`. -/
def splitClause (q : Quoting) (depth : Nat) : List Char → Option (List Char × List Char)
  | [] => none
  | c :: r =>
    if q = .outside ∧ c = '\x7d' then
      match depth with
      | 0 => some ([], r)
      | d + 1 => (splitClause q d r).map fun p ↦ (c :: p.1, p.2)
    else if q = .outside ∧ c = '\x7b' then
      (splitClause q (depth + 1) r).map fun p ↦ (c :: p.1, p.2)
    else
      (splitClause (q.next c) depth r).map fun p ↦ (c :: p.1, p.2)

theorem length_of_splitClause {q : Quoting} {depth : Nat} {s body rest : List Char}
    (h : splitClause q depth s = some (body, rest)) :
    s.length = body.length + rest.length + 1 := by
  induction s generalizing q depth body rest with
  | nil => simp [splitClause] at h
  | cons c r ih =>
    unfold splitClause at h
    split at h
    · split at h
      · simp only [Option.some.injEq, Prod.mk.injEq] at h
        simp [← h.1, ← h.2]
      · obtain ⟨p, hp, he⟩ := Option.map_eq_some_iff.1 h
        cases he
        have := ih hp
        simp only [List.length_cons]
        omega
    · split at h <;>
      · obtain ⟨p, hp, he⟩ := Option.map_eq_some_iff.1 h
        cases he
        have := ih hp
        simp only [List.length_cons]
        omega

/-- What a known clause leaves in front of its expanded text. -/
inductive Clause where
  /-- A literal, a function or an outer join: nothing. -/
  | bare
  /-- A procedure call. -/
  | call
  /-- The escape character of a pattern. -/
  | escape
  deriving DecidableEq

/-- The text that stands in front of the expanded rest of a clause. -/
def Clause.lead : Clause → List Char
  | bare => []
  | call => "CALL ".toList
  | escape => "ESCAPE ".toList

/-- The keywords of clauses that leave nothing in front: date, time, timestamp, function and
outer join. -/
def bareKeywords : List (List Char) :=
  ["d".toList, "t".toList, "ts".toList, "fn".toList, "oj".toList]

/-- The clause of a keyword in any case of its ASCII letters. -/
def Clause.ofKeyword? (word : List Char) : Option Clause :=
  if bareKeywords.contains (Text.lower word) then some .bare
  else if Text.lower word = "call".toList then some .call
  else if Text.lower word = "escape".toList then some .escape
  else none

/-- The characters that the text starts with, removed; nothing if it starts otherwise. -/
def dropLetters? (word s : List Char) : Option (List Char) :=
  if Text.sameLetters (s.take word.length) word then some (s.drop word.length) else none

/-- The rest of a call that assigns its result: a question mark, an equals sign and the word
`call`, with blanks allowed between them. No blank has to follow the word. Spec §10.7,
`strip_return_call`. -/
def assignedCall? (body : List Char) : Option (List Char) :=
  match body with
  | '?' :: r =>
    match Text.trimStart r with
    | '=' :: r' => (dropLetters? "call".toList (Text.trimStart r')).map Text.trim
    | _ => none
  | _ => none

/-- A clause read from the text between its braces: its kind and the text still to be expanded.
An unknown clause gives nothing. Spec §10.7, `translate`. -/
def Clause.read? (inner : List Char) : Option (Clause × List Char) :=
  let body := Text.trim inner
  match assignedCall? body with
  | some rest => some (.call, rest)
  | none =>
    let word := body.takeWhile fun c ↦ !Text.isBlank c
    let rest := body.dropWhile fun c ↦ !Text.isBlank c
    (Clause.ofKeyword? word).map fun k ↦ (k, Text.trim rest)

private theorem length_of_assignedCall {body rest : List Char}
    (h : assignedCall? body = some rest) : rest.length ≤ body.length := by
  unfold assignedCall? at h
  split at h
  · next r =>
    split at h
    · next r' hr =>
      obtain ⟨t, ht, rfl⟩ := Option.map_eq_some_iff.1 h
      have h1 := Text.length_trimStart_le r
      have h2 := Text.length_trimStart_le r'
      have h3 := Text.length_trim_le t
      unfold dropLetters? at ht
      split at ht
      · cases ht
        rw [hr] at h1
        simp only [List.length_cons, List.length_drop] at *
        omega
      · simp at ht
    · simp at h
  · simp at h

theorem length_of_readClause {inner rest : List Char} {k : Clause}
    (h : Clause.read? inner = some (k, rest)) : rest.length ≤ inner.length := by
  have hb := Text.length_trim_le inner
  unfold Clause.read? at h
  simp only at h
  split at h
  · next hr =>
    cases h
    exact Nat.le_trans (length_of_assignedCall hr) hb
  · obtain ⟨k', -, he⟩ := Option.map_eq_some_iff.1 h
    cases he
    refine Nat.le_trans (Text.length_trim_le _) (Nat.le_trans ?_ hb)
    exact ((Text.trim inner).dropWhile_sublist _).length_le

/-- The text with its clauses expanded, from a position with the given quoting. It fails exactly
where a clause is not closed. -/
def expandFrom (q : Quoting) (s : List Char) : Except SqlError (List Char) :=
  match s with
  | [] => .ok []
  | c :: r =>
    if q = .outside ∧ c = '\x7b' then
      match _hs : splitClause .outside 0 r with
      | none => .error (.invalidArgument .unterminatedEscape)
      | some (inner, rest) =>
        match _hc : Clause.read? inner with
        | none => (expandFrom .outside rest).map fun t ↦ c :: inner ++ '\x7d' :: t
        | some (k, body) =>
          match expandFrom .outside body with
          | .error e => .error e
          | .ok b => (expandFrom .outside rest).map fun t ↦ k.lead ++ b ++ t
    else
      (expandFrom (q.next c) r).map (c :: ·)
termination_by s.length
decreasing_by
  all_goals simp only [List.length_cons]
  · have := length_of_splitClause _hs
    omega
  · have := length_of_splitClause _hs
    have := length_of_readClause _hc
    omega
  · have := length_of_splitClause _hs
    omega
  · omega

/-- The text with its escape clauses expanded. -/
def expand (s : List Char) : Except SqlError (List Char) := expandFrom .outside s

/-- The SQL text with its escape clauses expanded. Spec §10.7, `EscapeProcessor`. -/
def expandText (sql : String) : Except SqlError String :=
  (expand sql.toList).map String.ofList

end SqlSession.Sql
