import SqlSession.Statement.Execute

/-!
# Batches

A batch is a queue of updates. Executing it runs them in order whatever becomes of each, and
empties the queue even when the whole batch is refused. A batch with failed entries is itself
an error, which carries every outcome and speaks for the last failure.

Specification: §4.3.
-/

namespace SqlSession

/-- The course of the entries of a batch. -/
structure BatchRun where
  statement : Statement
  context : Context
  /-- The outcome of each entry in order, with a marker for those that failed. -/
  counts : List Int32 := []
  failed : Nat := 0
  lastError : Option SqlError := none

namespace Statement

/-- Queue an update. An empty text is ignored. Spec §4.3, `add_batch`. -/
def enqueue (s : Statement) (c : Context) (sql : String) : Outcome Unit :=
  match s.usable c with
  | .error e => ⟨.error e, s, c⟩
  | .ok _ => ⟨.ok (), if sql = "" then s else { s with queue := s.queue ++ [sql] }, c⟩

/-- Empty the queue. Spec §4.3, `clear_batch`. -/
def clearQueue (s : Statement) (c : Context) : Outcome Unit :=
  match s.usable c with
  | .error e => ⟨.error e, s, c⟩
  | .ok _ => ⟨.ok (), { s with queue := [] }, c⟩

/-- Run updates in order and go on after failures. -/
def runEntries (s : Statement) (c : Context) : List String → BatchRun
  | [] => { statement := s, context := c }
  | sql :: rest =>
    let o := s.update c sql
    match o.result with
    | .ok n =>
      let r := o.statement.runEntries o.context rest
      { r with counts := n :: r.counts }
    | .error e =>
      let r := o.statement.runEntries (o.context.log [Log.batchEntryFailed s.id e]) rest
      { r with
        counts := failedEntry :: r.counts
        failed := r.failed + 1
        lastError := r.lastError <|> some e }

/-- A batch may run: its statement is open, and the connection can be locked and written. -/
def checkBatch (s : Statement) (c : Context) : Except SqlError Unit :=
  (s.usable c).bind fun _ ↦ c.lock.bind fun l ↦
    if l.connection.readOnly then .error .readOnlyViolation else .ok ()

/-- The error of a batch that speaks for its last failure. -/
def batchError (e : SqlError) (counts : List Int32) : SqlError :=
  .batchFailure e.message e.state e.native counts

/-- Run the queue and empty it. The connection stays alive meanwhile. Spec §4.3, `execute_batch`. -/
def runBatch (s : Statement) (c : Context) : Outcome (List Int32) :=
  let commands := s.queue
  let s := { s with queue := [] }
  match s.checkBatch c with
  | .error e => ⟨.error e, s, c⟩
  | .ok _ =>
    let r := s.runEntries { c with borrowed := true } commands
    let c := { r.context with borrowed := false }.log
      (s.setup.logger.batch s.id r.counts.length r.failed)
    match r.lastError with
    | none => ⟨.ok r.counts, r.statement, c⟩
    | some e =>
      ⟨.error (batchError e r.counts), r.statement,
        c.count s.setup.scope Metrics.addFailedBatch⟩

end Statement

end SqlSession
