import SqlSession.Proofs.Literals

/-!
# Texts without known clauses

A text is settled if each of its clauses is closed and none of them is known. These are the texts
that the expansion leaves alone, and what it gives is one of them: clauses that are not known are
copied whole, and what comes from a known one ends outside of quotes and clauses, so that nothing
new arises where it meets what follows.
-/

namespace SqlSession.Sql

/-- From a position with the given quoting on, every clause is closed, and none is known. -/
inductive Settled : Quoting → List Char → Prop
  | nil (q : Quoting) : Settled q []
  /-- A character that opens no clause. -/
  | copied {q : Quoting} {c : Char} {r : List Char} (hopen : ¬(q = .outside ∧ c = '\x7b'))
      (h : Settled (q.next c) r) : Settled q (c :: r)
  /-- A clause that is not known, whatever stands in it. -/
  | unknown {inner rest : List Char} (hb : Balanced inner) (hc : Clause.read? inner = none)
      (h : Settled .outside rest) : Settled .outside ('\x7b' :: (inner ++ '\x7d' :: rest))

namespace Settled

/-- A text without quotes and braces is settled. -/
theorem of_plain {s : List Char} (h : Plain s) : Settled .outside s := by
  induction s with
  | nil => exact .nil _
  | cons c r ih =>
    obtain ⟨hc, hr⟩ := List.forall_mem_cons.1 h
    have hnext : Quoting.outside.next c = .outside := if_neg (by simp [isQuote_of_isMark hc])
    refine .copied ?_ (by rw [hnext]; exact ih hr)
    rintro ⟨-, rfl⟩
    cases hc

/-- Where a settled text ends outside of quotes another one may follow. -/
theorem append {q : Quoting} {a b : List Char} (ha : Settled q a) (hq : q.after a = .outside)
    (hb : Settled .outside b) : Settled q (a ++ b) := by
  induction ha with
  | nil q =>
    have hout : q = .outside := hq
    exact hout ▸ hb
  | copied hopen _ ih => exact .copied hopen (ih hq)
  | @unknown inner rest hbal hc _ ih =>
    rw [(Quoting.literalsFrom_clause hbal rest).2] at hq
    rw [List.cons_append, List.append_assoc]
    exact .unknown hbal hc (ih hq)

/-- A settled text is expanded to itself. -/
theorem expands {q : Quoting} {s : List Char} (h : Settled q s) : Expands q s s := by
  induction h with
  | nil q => exact .nil q
  | copied hopen _ ih => exact .copied hopen ih
  | unknown hb hc _ ih => exact .unknown hb hc ih

end Settled

/-- The words that stand for keywords are free of marks. -/
theorem plain_lead (k : Clause) : Plain k.lead := by
  cases k <;> decide

/-- What is left of a balanced clause is expanded to a text that ends outside of quotes. -/
theorem after_body {inner body b : List Char} {k : Clause} (h : Balanced inner)
    (hr : Clause.read? inner = some (k, body)) (hb : Expands .outside body b) :
    Quoting.outside.after b = .outside := by
  rw [(literalsFrom_expandFrom hb.expandFrom_eq).2]
  exact Quoting.after_balanced (h.rest hr)

/-- What the expansion gives is settled. -/
theorem Expands.settled {q : Quoting} {s t : List Char} (h : Expands q s t) : Settled q t := by
  induction h with
  | nil q => exact .nil q
  | copied hopen _ ih => exact .copied hopen ih
  | unknown hb hc _ ih => exact .unknown hb hc ih
  | @known _ _ _ _ _ k hb hc hbody _ ihBody ih =>
    have hlead : Quoting.outside.after k.lead = .outside :=
      Quoting.after_unquoted (Quoting.unquoted_lead k)
    exact (Settled.of_plain (plain_lead k)).append hlead
      (ihBody.append (after_body hb hc hbody) ih)

/-- The expansion leaves exactly the settled texts alone. -/
theorem expand_eq_self_iff {s : List Char} : expand s = .ok s ↔ Settled .outside s :=
  ⟨fun h ↦ (expands_of_expandFrom h).settled, fun h ↦ h.expands.expandFrom_eq⟩

/-- The expansion is idempotent: a text that has been expanded is left alone. -/
theorem expandText_idempotent {sql text : String} (h : expandText sql = .ok text) :
    expandText text = .ok text := by
  obtain ⟨t, ht, rfl⟩ := ok_of_map h
  have hself : expand t = .ok t := expand_eq_self_iff.2 (expands_of_expandFrom ht).settled
  rw [expandText, String.toList_ofList, hself]
  rfl

/-- Behind a brace that nothing opens, a known clause within one that is not known stays as it is,
and so does one that comes out of a known clause. -/
theorem expandText_idempotent_nested :
    let sql :=
      "\x7d \x7blimit \x7bd '1'\x7d\x7d\x7bfn \x7bx \x7bt 2\x7d\x7d \x7d\x7boj a\x7d '\x7bd"
    let text := "\x7d \x7blimit \x7bd '1'\x7d\x7d\x7bx \x7bt 2\x7d\x7da '\x7bd"
    expandText sql = .ok text ∧ expandText text = .ok text := by
  intro sql text
  have h : expandText sql = .ok text := by decide +kernel
  exact ⟨h, expandText_idempotent h⟩

end SqlSession.Sql
