import SqlSession.Proofs.FirstLetter
import SqlSession.Proofs.SessionLimit
import SqlSession.Proofs.Terms

/-!
# The gate of a read-only connection

Over a read-only connection updates and batches send nothing. Any text may be executed that is
taken for a query as it is given, and it is sent as a query: the expansion of its escape clauses
keeps the first letter that decides both.
-/

namespace SqlSession

namespace Execution

/-- An execution that its connection does not take for its kind has no goal. -/
theorem allowed_of_goal {e : Execution} {text : String} (h : e.goal? = some text)
    (hr : e.context.connection.readOnly = true) : e.kind.allowedReadOnly e.sql = true := by
  unfold goal? at h
  split at h
  · simp at h
  · next hp => exact (Statement.access_of_prepare hp).2 hr

/-- An execution of a kind that a read-only connection does not take sends nothing. -/
theorem sent_of_forbidden {e : Execution} (hr : e.context.connection.readOnly = true)
    (hk : e.kind.allowedReadOnly e.sql = false) : e.sent = [] := by
  obtain ⟨-, hd⟩ := e.sent_delivery
  cases hg : e.goal? with
  | none => simpa [hg] using hd
  | some text =>
    rw [allowed_of_goal hg hr] at hk
    simp at hk

end Execution

/-- A command is a text that was executed over a read-only connection: it is the expanded one, is
taken for a query, and has the first letter of the text as it was given. -/
structure Dispatch.Admitted (t : Statement) (sql : String) (d : Dispatch) : Prop where
  purpose : d.command.purpose = .text
  expanded : t.expanded sql = .ok d.command.sql
  letter : Sql.firstLetter? d.command.sql.toList = some 'S' ∨
    Sql.firstLetter? d.command.sql.toList = some 's'
  same : Sql.firstLetter? d.command.sql.toList = Sql.firstLetter? sql.toList
  query : d.command.query = true

namespace Statement

/-- Over a read-only connection any execution sends admitted texts behind directives. -/
theorem admitted_of_sent {t : Statement} (ht : t.setup.escaper = Sql.expandText) {c : Context}
    (hr : c.connection.readOnly = true) {sql : String} {d : Dispatch}
    (h : d ∈ (⟨t, c, .execute, sql⟩ : Execution).sent) :
    d.command.purpose = .limit ∨ d.Admitted t sql := by
  obtain ⟨text, hg, ⟨hl, -⟩ | ⟨hp, rfl, hq⟩⟩ := Execution.goal_of_sent h
  · exact .inl hl
  · right
    have hgate : Sql.startsQuery sql = true := Execution.allowed_of_goal hg hr
    have hx : t.expanded sql = .ok d.command.sql := (Execution.goal?_eq_some hg).2
    have hsame := firstLetter?_expanded ht hx hgate
    have hletter := Sql.startsQuery_iff.1 hgate
    rw [← hsame] at hletter
    exact ⟨hp, hx, hletter, hsame, hq.trans (Sql.startsQuery_iff.2 hletter)⟩

/-- A batch over a read-only connection sends nothing. -/
theorem batchExecutions_readOnly (t : Statement) {c : Context}
    (hr : c.connection.readOnly = true) : t.batchExecutions c = [] := by
  unfold batchExecutions checkBatch
  cases ({ t with queue := [] } : Statement).usable c with
  | error e => rfl
  | ok u =>
    cases hl : c.lock with
    | error e => rfl
    | ok l => simp [Except.bind, Context.connection_lock hl, hr]

end Statement

namespace Session

/-- What the statement in a place sends over a read-only connection. -/
structure Gated (s : Session) (place : Nat) (t : Statement) : Prop where
  update : ∀ sql keys, (s.step (.call place (.update sql keys))).2.context.connection.dispatches =
    s.context.connection.dispatches
  largeUpdate : ∀ sql, (s.step (.call place (.largeUpdate sql))).2.context.connection.dispatches =
    s.context.connection.dispatches
  batch : (s.step (.call place .runBatch)).2.context.connection.dispatches =
    s.context.connection.dispatches
  execute : t.setup.escaper = Sql.expandText → ∀ sql keys, ∃ sent,
    (s.step (.call place (.execute sql keys))).2.context.connection.dispatches =
        s.context.connection.dispatches ++ sent ∧
      ∀ d ∈ sent, d.command.purpose = .limit ∨ d.Admitted t sql

/-- While the connection is read-only, it is so for every statement. -/
theorem gated_of_readOnly {s : Session} (hr : s.context.connection.readOnly = true) {place : Nat}
    {t : Statement} (ht : s.statement? place = some t) : s.Gated place t := by
  have sends (call : Call) :
      (s.step (.call place call)).2.context.connection.dispatches =
        s.context.connection.dispatches ++
          (t.executions s.context call).flatMap Execution.sent := by
    rw [step_call_eq ht]
    exact t.dispatches_perform s.context call
  have updates (sql : String) : (⟨t, s.context, .update, sql⟩ : Execution).sent = [] :=
    Execution.sent_of_forbidden hr rfl
  constructor
  · intro sql keys
    have hone : Call.single? (.update sql keys) = some (.update, sql) := rfl
    rw [sends, Statement.executions_single hone]
    simp [updates]
  · intro sql
    have hone : Call.single? (.largeUpdate sql) = some (.update, sql) := rfl
    rw [sends, Statement.executions_single hone]
    simp [updates]
  · have hnone : t.executions s.context .runBatch = [] := t.batchExecutions_readOnly hr
    rw [sends, hnone]
    simp
  · intro hx sql keys
    refine ⟨(⟨t, s.context, .execute, sql⟩ : Execution).sent, ?_,
      fun d hd ↦ Statement.admitted_of_sent hx hr hd⟩
    have hone : Call.single? (.execute sql keys) = some (.execute, sql) := rfl
    rw [sends, Statement.executions_single hone]
    simp

/-- A connection stays read-only until the application makes it writable. -/
theorem readOnly_step {s : Session} (hr : s.context.connection.readOnly = true) {op : Operation}
    (hop : op ≠ .connection (.setReadOnly false)) :
    (s.step op).2.context.connection.readOnly = true := by
  have kept {k : Connection} (hk : k.terms = s.context.connection.terms) : k.readOnly = true :=
    (Connection.readOnly_of_terms hk).trans hr
  cases op with
  | connection call =>
    unfold step
    dsimp only
    split
    · cases call with
      | setReadOnly on =>
        cases on with
        | true => rfl
        | false => exact absurd rfl hop
      | selectCatalog name =>
        unfold connectionCall
        dsimp only
        split
        · next k hk => exact kept (Connection.terms_selectCatalog hk)
        · exact hr
      | rollback =>
        unfold connectionCall
        dsimp only
        split <;> exact hr
      | execute cmd => exact kept (s.context.connection.terms_send cmd)
      | _ => exact hr
    · exact hr
  | _ => exact kept (s.terms_step (by simp))

/-- Over a read-only connection updates and batches send nothing, and what any execution sends is
taken for a query as it was given and as it is sent. A connection stays read-only until the
application makes it writable, and the expansion of escape clauses keeps every first letter that
opens no clause. -/
theorem readOnly_gate (connection : Connection) (ops : List Operation) :
    let s := (start connection).run ops
    (connection.readOnly = true → .connection (.setReadOnly false) ∉ ops →
      s.context.connection.readOnly = true) ∧
    (s.context.connection.readOnly = true →
      ∀ place t, s.statement? place = some t → s.Gated place t) ∧
    ∀ sql text, Sql.expandText sql = .ok text → Sql.firstLetter? sql.toList ≠ some '\x7b' →
      Sql.firstLetter? text.toList = Sql.firstLetter? sql.toList := by
  refine ⟨fun hr hw ↦ ?_, fun hr place t ht ↦ gated_of_readOnly hr ht,
    fun sql text h hb ↦ Sql.firstLetter?_expandText h hb⟩
  have hstep : ∀ s : Session, ∀ op ∈ ops, s.context.connection.readOnly = true →
      (s.step op).2.context.connection.readOnly = true :=
    fun s op hop hr ↦ readOnly_step hr fun he ↦ hw (he ▸ hop)
  exact run_induction hstep hr

/-- A query with a clause goes through the gate behind the directive of its row limit, and an update
and a batch do not. -/
theorem readOnly_gate_limited :
    let k : Connection := { catalog := "main", readOnly := true }
    let ops : List Operation :=
      [.make .plain {}, .call 0 (.set (.maxRows 3)), .call 0 (.enqueue "UPDATE t")]
    let sql := " select \x7bfn f(1)\x7d"
    let s := (start k).run ops
    let sent (call : Call) : List Dispatch :=
      (s.step (.call 0 call)).2.context.connection.dispatches
    ∃ t, s.statement? 0 = some t ∧ t.setup.escaper = Sql.expandText ∧
      s.context.connection.readOnly = true ∧ s.context.connection.dispatches = [] ∧
      sent (.largeUpdate "UPDATE t") = [] ∧ sent .runBatch = [] ∧
      (sent (.execute sql none)).map (fun d ↦ d.command.sql) =
        ["SET OPTION SQL_SELECT_LIMIT=3", " select f(1)"] ∧
      ∀ d ∈ sent (.execute sql none), d.command.purpose = .limit ∨ d.Admitted t sql := by
  intro k ops sql s sent
  have ht : s.statement? 0 = some ((s.statement? 0).get rfl) := (Option.some_get rfl).symm
  have hnone : s.context.connection.dispatches = [] := by decide +kernel
  obtain ⟨hstays, hgated, -⟩ := readOnly_gate k ops
  have hr : s.context.connection.readOnly = true := hstays rfl (by simp [ops])
  have hg := hgated hr 0 _ ht
  have hexecute := hg.execute rfl sql none
  rw [hnone] at hexecute
  obtain ⟨ds, hds, hall⟩ := hexecute
  refine ⟨_, ht, rfl, hr, hnone, (hg.largeUpdate _).trans hnone, hg.batch.trans hnone,
    by decide +kernel, ?_⟩
  have hsame : sent (.execute sql none) = ds := hds
  rw [hsame]
  exact hall

end Session

end SqlSession
