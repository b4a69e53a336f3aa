import SqlSession.Proofs.Exchange
import SqlSession.Session.Basic

/-!
# Single executions

Calls carry out single executions: one for each executing call, and one for each entry of a
batch. Each is an attempt from the state in which it starts.
-/

namespace SqlSession

/-- A single execution: its kind and text, and the state that it starts from. -/
structure Execution where
  statement : Statement
  context : Context
  kind : StatementKind
  sql : String

namespace Execution

/-- What the execution comes to. -/
def outcome (e : Execution) : Outcome Packet := e.statement.attempt e.context e.kind e.sql

/-- The surroundings after the execution. -/
def after (e : Execution) : Context := e.outcome.context

/-- The records of the commands that the execution sends. -/
def sent (e : Execution) : List Dispatch :=
  e.after.connection.dispatches.drop e.context.connection.dispatches.length

/-- The catalogs that the execution selects. -/
def selected (e : Execution) : List String :=
  e.after.connection.selections.drop e.context.connection.selections.length

end Execution

/-- The kind and the text of a call that is a single execution. -/
def Call.single? : Call → Option (StatementKind × String)
  | .execute sql _ => some (.execute, sql)
  | .query sql => some (.query, sql)
  | .update sql _ => some (.update, sql)
  | .largeUpdate sql => some (.update, sql)
  | _ => none

namespace Statement

/-- The surroundings in which a batch goes on after an entry: a failure has been logged. -/
def afterEntry (s : Statement) (o : Outcome Packet) : Context :=
  match o.result with
  | .ok _ => o.context
  | .error e => o.context.log [Log.batchEntryFailed s.id e]

/-- The executions of the entries of a batch. -/
def entryExecutions (s : Statement) (c : Context) : List String → List Execution
  | [] => []
  | sql :: rest =>
    let o := s.attempt c .update sql
    ⟨s, c, .update, sql⟩ :: o.statement.entryExecutions (s.afterEntry o) rest

/-- The executions of a batch, none if the batch is refused. -/
def batchExecutions (s : Statement) (c : Context) : List Execution :=
  match { s with queue := [] }.checkBatch c with
  | .error _ => []
  | .ok _ => { s with queue := [] }.entryExecutions { c with borrowed := true } s.queue

/-- The executions of a call. -/
def executions (s : Statement) (c : Context) (call : Call) : List Execution :=
  match call.single? with
  | some (kind, sql) => [⟨s, c, kind, sql⟩]
  | none =>
    match call with
    | .runBatch => s.batchExecutions c
    | _ => []

/-- A call that is a single execution is the only one in it. -/
theorem executions_single {s : Statement} {c : Context} {call : Call} {kind : StatementKind}
    {sql : String} (h : call.single? = some (kind, sql)) :
    s.executions c call = [⟨s, c, kind, sql⟩] := by
  simp [executions, h]

/-- The course of a batch puts the outcome of its first entry before those of the others. -/
theorem runEntries_cons_eq (s : Statement) (c : Context) (sql : String) (rest : List String) :
    s.runEntries c (sql :: rest) =
      let o := s.attempt c .update sql
      let r := o.statement.runEntries (s.afterEntry o) rest
      match o.result with
      | .ok p => { r with counts := narrowCount p.head.updateCount :: r.counts }
      | .error e =>
        { r with
          counts := failedEntry :: r.counts
          failed := r.failed + 1
          lastError := r.lastError <|> some e } := by
  simp only [runEntries, update_eq, afterEntry]
  cases h : (s.attempt c .update sql).result <;> simp [Outcome.map, Except.map, h]

/-- The entries behind the first one start from where it ended. -/
theorem runEntries_cons (s : Statement) (c : Context) (sql : String) (rest : List String) :
    let o := s.attempt c .update sql
    let r := o.statement.runEntries (s.afterEntry o) rest
    (s.runEntries c (sql :: rest)).statement = r.statement ∧
      (s.runEntries c (sql :: rest)).context = r.context := by
  rw [runEntries_cons_eq]
  dsimp only
  cases (s.attempt c .update sql).result with
  | ok p => exact ⟨rfl, rfl⟩
  | error e => exact ⟨rfl, rfl⟩

/-- What each update keeps of a statement, the entries of a batch keep. -/
theorem runEntries_keeps {α : Type} (f : Statement → α)
    (h : ∀ s c kind sql, f (attempt s c kind sql).statement = f s) (entries : List String)
    (s : Statement) (c : Context) : f (s.runEntries c entries).statement = f s := by
  induction entries generalizing s c with
  | nil => rfl
  | cons sql rest ih => rw [(s.runEntries_cons c sql rest).1, ih, h]

end Statement

/-- The call executes nothing. -/
def Call.quiet : Call → Bool
  | .execute _ _ => false
  | .query _ => false
  | .update _ _ => false
  | .largeUpdate _ => false
  | .runBatch => false
  | _ => true

/-- What executes but is not a single execution is a batch. -/
theorem Call.eq_runBatch {call : Call} (hs : call.single? = none) (hq : call.quiet = false) :
    call = .runBatch := by
  cases call with
  | runBatch => rfl
  | execute _ _ => simp [Call.single?] at hs
  | query _ => simp [Call.single?] at hs
  | update _ _ => simp [Call.single?] at hs
  | largeUpdate _ => simp [Call.single?] at hs
  | _ => simp [Call.quiet] at hq

/-- What a call that is a single execution answers for the packet of its attempt. -/
def Call.answerOf : Call → Packet → Answer
  | .execute _ _, p => .flag p.head.hasRows
  | .query _, p => .packet p.withoutNext
  | .update _ _, p => .count (Statement.narrowCount p.head.updateCount)
  | .largeUpdate _, p => .largeCount p.head.updateCount
  | _, _ => .done

/-- A call that is a single execution attempts its text and answers for the packet. -/
theorem Statement.perform_attempt {s : Statement} {c : Context} {call : Call}
    {kind : StatementKind} {sql : String} (h : call.single? = some (kind, sql)) :
    s.perform c call =
      ⟨(s.attempt c kind sql).result.map call.answerOf, (s.attempt c kind sql).statement,
        (s.attempt c kind sql).context⟩ := by
  have compose {α : Type} (g : Packet → α) (f : α → Answer) (o : Outcome Packet) :
      (o.map g).answer f = ⟨o.result.map fun p ↦ f (g p), o.statement, o.context⟩ := by
    cases hr : o.result <;> simp [Outcome.map, Outcome.answer, Except.map, hr]
  cases call with
  | execute t keys =>
    obtain ⟨rfl, rfl⟩ := Prod.mk.inj (Option.some.inj h)
    refine Eq.trans ?_ (compose (fun p ↦ p.head.hasRows) .flag _)
    rw [← execute_eq]
    cases keys <;> rfl
  | query t =>
    obtain ⟨rfl, rfl⟩ := Prod.mk.inj (Option.some.inj h)
    refine Eq.trans ?_ (compose Packet.withoutNext .packet _)
    rw [← query_eq]
    rfl
  | update t keys =>
    obtain ⟨rfl, rfl⟩ := Prod.mk.inj (Option.some.inj h)
    refine Eq.trans ?_ (compose (fun p ↦ narrowCount p.head.updateCount) .count _)
    rw [← update_eq]
    cases keys <;> rfl
  | largeUpdate t =>
    obtain ⟨rfl, rfl⟩ := Prod.mk.inj (Option.some.inj h)
    refine Eq.trans ?_ (compose (fun p ↦ p.head.updateCount) .largeCount _)
    rw [← largeUpdate_eq]
    rfl
  | _ => simp [Call.single?] at h

/-- The packet of an attempt alone decides the answer of a call that is a single execution. -/
theorem Statement.perform_single {s : Statement} {c : Context} {call : Call}
    {kind : StatementKind} {sql : String} (h : call.single? = some (kind, sql)) :
    ∃ f : Packet → Answer, s.perform c call =
      ⟨(s.attempt c kind sql).result.map f, (s.attempt c kind sql).statement,
        (s.attempt c kind sql).context⟩ :=
  ⟨call.answerOf, perform_attempt h⟩

end SqlSession
