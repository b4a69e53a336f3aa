import SqlSession.Proofs.Literals
import SqlSession.Proofs.SessionLimit
import SqlSession.Proofs.Setups

/-!
# Blank texts

An execution refuses a text that is blank as it is given. What it sends is the expanded text, and
that is blank for some more texts, the hollow ones: those of clauses that leave no word of their own
and hold nothing else. No directive is blank, so what is blank on the connection comes from a hollow
text of a statement that expands clauses.
-/

namespace SqlSession

namespace Sql

/-- Outside of clauses the text has only blanks, and each of its clauses leaves no word in front and
is hollow itself. -/
inductive Hollow : List Char → Prop
  | nil : Hollow []
  | blank {c : Char} {r : List Char} (hc : Text.isBlank c = true) (h : Hollow r) : Hollow (c :: r)
  | clause {inner rest body : List Char} (hb : Balanced inner)
      (hc : Clause.read? inner = some (.bare, body)) (hbody : Hollow body) (h : Hollow rest) :
    Hollow ('\x7b' :: (inner ++ '\x7d' :: rest))

/-- A character that opens no clause has to be blank. -/
theorem hollow_cons_iff {c : Char} {r : List Char} (hopen : c ≠ '\x7b') :
    Hollow (c :: r) ↔ Text.isBlank c = true ∧ Hollow r := by
  constructor
  · intro h
    cases h with
    | blank hc h => exact ⟨hc, h⟩
    | clause _ _ _ _ => exact absurd rfl hopen
  · rintro ⟨hc, h⟩
    exact .blank hc h

/-- A clause has to be known, to leave no word in front, and to hold a hollow text. -/
theorem hollow_clause_iff {inner rest : List Char} (hb : Balanced inner) :
    Hollow ('\x7b' :: (inner ++ '\x7d' :: rest)) ↔
      ∃ body, Clause.read? inner = some (.bare, body) ∧ Hollow body ∧ Hollow rest := by
  have hs : splitClause .outside 0 (inner ++ '\x7d' :: rest) = some (inner, rest) :=
    splitClause_iff.2 ⟨rfl, hb⟩
  constructor
  · intro h
    generalize he : inner ++ '\x7d' :: rest = r at h hs
    cases h with
    | blank hc _ => exact absurd hc (by decide)
    | clause hb' hc hbody h =>
      -- a clause is closed in one place only
      rw [splitClause_iff.2 ⟨rfl, hb'⟩] at hs
      obtain ⟨rfl, rfl⟩ := Prod.mk.inj (Option.some.inj hs)
      exact ⟨_, hc, hbody, h⟩
  · rintro ⟨body, hc, hbody, h⟩
    exact .clause hb hc hbody h

/-- Only a clause of the bare sort leaves no word in front. -/
theorem allBlank_lead_iff {k : Clause} : Text.allBlank k.lead = true ↔ k = .bare := by
  cases k <;> decide

/-- Outside of quotes what the expansion gives is blank exactly if the text is hollow. -/
theorem Expands.allBlank_iff {q : Quoting} (hq : q = .outside) {s t : List Char}
    (h : Expands q s t) : Text.allBlank t = true ↔ Hollow s := by
  induction h with
  | nil q => exact iff_of_true rfl .nil
  | copied hopen _ ih =>
    rw [hollow_cons_iff fun hc ↦ hopen ⟨hq, hc⟩, Text.allBlank, List.all_cons, Bool.and_eq_true]
    refine and_congr_right fun hc ↦ ih ?_
    rw [hq]
    exact (next_of_isBlank hc).1
  | unknown hb hc _ _ =>
    have hbrace (s : List Char) : Text.allBlank ('\x7b' :: s) = false := rfl
    simp [hollow_clause_iff hb, hc, hbrace]
  | @known inner rest body b t k hb hc _ _ ihBody ih =>
    rw [Text.allBlank_append, Text.allBlank_append, Bool.and_eq_true, Bool.and_eq_true,
      allBlank_lead_iff, ihBody rfl, ih rfl, hollow_clause_iff hb, hc]
    constructor
    · rintro ⟨rfl, hbody, hrest⟩
      exact ⟨body, rfl, hbody, hrest⟩
    · rintro ⟨body', he, hbody, hrest⟩
      obtain ⟨rfl, rfl⟩ := Prod.mk.inj (Option.some.inj he)
      exact ⟨rfl, hbody, hrest⟩

/-- The expansion of a text is blank exactly if the text is hollow. -/
theorem allBlank_expandText_iff {sql text : String} (h : expandText sql = .ok text) :
    Text.allBlank text.toList = true ↔ Hollow sql.toList := by
  obtain ⟨t, ht, rfl⟩ := ok_of_map h
  rw [String.toList_ofList]
  exact (expands_of_expandFrom ht).allBlank_iff rfl

/-- No directive is blank. -/
theorem allBlank_directive {limitsRows query : Bool} {sql d : String} {maxRows : Int32}
    (h : (LimitRoute.choose limitsRows sql query maxRows).directive? = some d) :
    Text.allBlank d.toList = false := by
  have hdefault : Text.allBlank defaultLimitDirective.toList = false := by decide
  have hfor : Text.allBlank (directiveFor maxRows).toList = false := by
    unfold directiveFor
    split
    · exact hdefault
    · have hword : Text.allBlank "SET OPTION SQL_SELECT_LIMIT=".toList = false := by decide
      rw [String.toList_append, Text.allBlank_append, hword, Bool.false_and]
  unfold LimitRoute.choose at h
  split at h
  · cases h
  · split at h
    · exact Option.some.inj h ▸ hdefault
    · split at h
      · cases h
      · exact Option.some.inj h ▸ hfor

end Sql

/-- An attempt of a blank text is refused and changes nothing. -/
theorem Statement.attempt_blank (s : Statement) (c : Context) (kind : StatementKind) {sql : String}
    (h : Text.allBlank sql.toList = true) :
    ∃ err, s.attempt c kind sql = ⟨.error err, s, c⟩ ∧
      (s.usable c = .ok () → err = .invalidArgument .blankSql) := by
  have hp : s.prepare c kind sql =
      (s.usable c).bind fun _ ↦ .error (.invalidArgument .blankSql) := by
    unfold prepare
    simp only [if_pos h]
  rw [attempt_eq, hp]
  cases s.usable c with
  | error e => exact ⟨e, rfl, nofun⟩
  | ok u => exact ⟨_, rfl, fun _ ↦ rfl⟩

namespace Execution

/-- What an execution makes of blank texts. -/
structure GuardsBlank (e : Execution) : Prop where
  /-- A text that is blank as it is given is refused: nothing is sent, and nothing changes. -/
  refused : Text.allBlank e.sql.toList = true → e.sent = [] ∧
    ∃ err, e.outcome = ⟨.error err, e.statement, e.context⟩ ∧
      (e.statement.usable e.context = .ok () → err = .invalidArgument .blankSql)
  /-- A command is blank exactly if it carries the expansion of a hollow text. -/
  sent : ∀ d ∈ e.sent, Text.allBlank d.command.sql.toList = true ↔
    d.command.purpose = .text ∧ e.statement.settings.escapeProcessing = true ∧
      Sql.Hollow e.sql.toList

/-- An execution of a blank text sends nothing. -/
theorem sent_blank {e : Execution} (h : Text.allBlank e.sql.toList = true) : e.sent = [] := by
  obtain ⟨err, ho, -⟩ := e.statement.attempt_blank e.context e.kind h
  have hafter : e.after = e.context := congrArg Outcome.context ho
  rw [sent, hafter, List.drop_length]

/-- The executions of statements that expand escape clauses guard the connection against blank
texts, and let through those that come from hollow ones. -/
theorem guardsBlank {e : Execution} (he : e.statement.setup.escaper = Sql.expandText) :
    e.GuardsBlank := by
  refine ⟨fun h ↦ ⟨sent_blank h, e.statement.attempt_blank _ _ h⟩, fun d hd ↦ ?_⟩
  obtain ⟨text, hg, ⟨hp, hdirective⟩ | ⟨hp, rfl, -⟩⟩ := goal_of_sent hd
  · rw [Sql.allBlank_directive hdirective, hp]
    exact iff_of_false nofun fun h ↦ nomatch h.1
  · have hx := (goal?_eq_some hg).2
    unfold Statement.expanded at hx
    by_cases hon : e.statement.settings.escapeProcessing = true
    · rw [if_pos hon, he] at hx
      rw [Sql.allBlank_expandText_iff hx]
      exact ⟨fun h ↦ ⟨hp, hon, h⟩, fun h ↦ h.2.2⟩
    · -- the text is sent as it was given, so it was not blank
      rw [if_neg hon] at hx
      refine iff_of_false (fun h ↦ ?_) fun h ↦ hon h.2.1
      rw [← Except.ok.inj hx] at h
      rw [sent_blank h] at hd
      cases hd

end Execution

namespace Session

/-- A call of a statement that can be used is refused for its blank text and changes nothing. -/
theorem step_blank {s : Session} {place : Nat} {t : Statement} (ht : s.statement? place = some t)
    (hu : t.usable s.context = .ok ()) {call : Call} {kind : StatementKind} {sql : String}
    (hone : call.single? = some (kind, sql)) (h : Text.allBlank sql.toList = true) :
    s.step (.call place call) = (.error (.invalidArgument .blankSql), s) := by
  obtain ⟨err, ho, herr⟩ := t.attempt_blank s.context kind h
  rw [step_call_eq ht, Statement.perform_attempt hone, ho, herr hu]
  dsimp only
  rw [set_statement ht]
  rfl

/-- What a session of statements that expand escape clauses sends is what its executions send. None
of them sends anything for a text that is blank as it is given, and a command is blank exactly if it
carries the expansion of a hollow text. A call with a blank text is refused, and changes nothing. -/
theorem blank_texts_hollow (connection : Connection) {ops : List Operation}
    (hd : ∀ op ∈ ops, op.direct = false)
    (hx : ∀ op ∈ ops, op.MakesWith fun setup ↦ setup.escaper = Sql.expandText) :
    let s := (start connection).run ops
    s.context.connection.dispatches =
        connection.dispatches ++ ((start connection).executions ops).flatMap Execution.sent ∧
      (∀ e ∈ (start connection).executions ops, e.GuardsBlank) ∧
      ∀ place t, s.statement? place = some t → t.usable s.context = .ok () →
        ∀ call kind sql, call.single? = some (kind, sql) → Text.allBlank sql.toList = true →
          s.step (.call place call) = (.error (.invalidArgument .blankSql), s) :=
  ⟨(follow_dispatches hd _).dispatches,
    fun e he ↦ Execution.guardsBlank (setup_executions hx (allSetUp_start connection) e he),
    fun _ _ ht hu _ _ _ hone h ↦ step_blank ht hu hone h⟩

/-- The expansion of a hollow text is sent by an entry of a batch, behind one that is refused. Once
the statement expands no clauses the text is sent as it is. -/
theorem blank_texts_hollow_batch :
    let k : Connection := { catalog := "main", limitsRows := true }
    let ops : List Operation :=
      [.make .plain {}, .call 0 (.enqueue " \t"), .call 0 (.enqueue " \x7bt \x7bD\x7d\x7d"),
        .call 0 .runBatch, .call 0 (.set (.escapeProcessing false)),
        .call 0 (.execute "\x7bfn \x7d" none)]
    let s := (start k).run ops
    (∀ op ∈ ops, op.direct = false) ∧
      (∀ op ∈ ops, op.MakesWith fun setup ↦ setup.escaper = Sql.expandText) ∧
      s.context.connection.dispatches.map (fun d ↦ d.command.sql) =
        ["SET OPTION SQL_SELECT_LIMIT=DEFAULT", " ", "SET OPTION SQL_SELECT_LIMIT=DEFAULT",
          "\x7bfn \x7d"] ∧
      ((start k).executions ops).map (fun e ↦ e.sql) =
        [" \t", " \x7bt \x7bD\x7d\x7d", "\x7bfn \x7d"] ∧
      (∀ e ∈ (start k).executions ops, e.GuardsBlank) ∧
      s.step (.call 0 (.query "\n")) = (.error (.invalidArgument .blankSql), s) := by
  intro k ops s
  have hd : ∀ op ∈ ops, op.direct = false := by simp [ops, Operation.direct]
  have hx : ∀ op ∈ ops, op.MakesWith fun setup ↦ setup.escaper = Sql.expandText := by
    simp [ops, Operation.MakesWith]
  obtain ⟨-, hguards, hstep⟩ := blank_texts_hollow k hd hx
  have ht : s.statement? 0 = some ((s.statement? 0).get (by decide +kernel)) :=
    (Option.some_get _).symm
  have hu : ((s.statement? 0).get (by decide +kernel)).usable s.context = .ok () := by
    decide +kernel
  have hrefused := hstep 0 _ ht hu (.query "\n") .query "\n" rfl (by decide +kernel)
  exact ⟨hd, hx, by decide +kernel, by decide +kernel, hguards, hrefused⟩

/-- A text of one function clause without a function is not blank, but what is sent for it is. -/
theorem blank_text_sent :
    ¬∀ (connection : Connection) (ops : List Operation), (∀ op ∈ ops, op.direct = false) →
      (∀ op ∈ ops, op.MakesWith fun setup ↦ setup.escaper = Sql.expandText) →
        ∀ e ∈ (start connection).executions ops, ∀ d ∈ e.sent,
          Text.allBlank d.command.sql.toList = false := by
  intro h
  let k : Connection := { catalog := "main" }
  let ops : List Operation := [.make .plain {}, .call 0 (.execute "\x7bfn \x7d" none)]
  have hnone := h k ops (by simp [ops, Operation.direct]) (by simp [ops, Operation.MakesWith])
  have hsent : ((start k).executions ops).flatMap (fun e ↦ e.sent.map fun d ↦ d.command.sql) =
      [""] := by decide +kernel
  have hmem : "" ∈ ((start k).executions ops).flatMap
      fun e ↦ e.sent.map fun d ↦ d.command.sql := by
    rw [hsent]
    exact List.mem_singleton.2 rfl
  obtain ⟨e, he, hd⟩ := List.mem_flatMap.1 hmem
  obtain ⟨d, hd, hsql⟩ := List.mem_map.1 hd
  have hfull := hnone e he d hd
  rw [hsql] at hfull
  cases hfull

end Session

end SqlSession
