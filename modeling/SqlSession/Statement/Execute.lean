import SqlSession.Statement.Results

/-!
# Executions

An execution is refused by checks that change nothing, or it empties the result slots and
sends its text while it holds the mutex of the connection: it selects the catalog of the
statement, sends a row limit directive if the session uses limits, then the text, and selects
the former catalog again. What the packet must carry depends on the kind of the execution; a
packet of the wrong sort is closed and rolled back.

Specification: §4.1 and §10.9.
-/

namespace SqlSession

/-- Which generated keys a caller asks for. The one key of the last packet is reported whatever
is asked for. Spec §10.6, `GeneratedKeys`. -/
inductive KeyRequest where
  | flag (value : Int32)
  | columns (indexes : List Int32)
  | names (columns : List String)
  deriving DecidableEq

/-- What an execution sends besides its text. -/
structure Shape where
  query : Bool
  streaming : Bool
  concurrency : Concurrency
  deriving DecidableEq

/-- The kind of execution may run a text over a read-only connection. Spec §4.1. -/
def StatementKind.allowedReadOnly : StatementKind → String → Bool
  | execute, sql => Sql.startsQuery sql
  | query, _ => true
  | update, _ => false

namespace Statement

/-- The shape of an execution of the kind that sends the text. -/
def shape (s : Statement) (kind : StatementKind) (sql : String) : Shape :=
  match kind with
  | .execute => ⟨Sql.startsQuery sql, s.settings.streaming, s.settings.concurrency⟩
  | .query => ⟨true, s.settings.streaming, s.settings.concurrency⟩
  | .update => ⟨false, false, .readOnly⟩

/-- The text with its escape clauses expanded if the statement does that. -/
def expanded (s : Statement) (sql : String) : Except SqlError String :=
  if s.settings.escapeProcessing then s.setup.escaper sql else .ok sql

/-- The connection takes statements of the kind: its mutex is free, it is open, and it is not
read-only for them. -/
def checkAccess (c : Context) (kind : StatementKind) (sql : String) : Except SqlError Unit :=
  c.lock.bind fun l ↦
    if l.connection.closed then .error .connectionClosed
    else if l.connection.readOnly && !kind.allowedReadOnly sql then .error .readOnlyViolation
    else .ok ()

/-- The checks before an execution, in the order of `run`. They change nothing and give the text to
send. Spec §4.1. -/
def prepare (s : Statement) (c : Context) (kind : StatementKind) (sql : String) :
    Except SqlError String :=
  (s.usable c).bind fun _ ↦
    if Text.allBlank sql.toList then .error (.invalidArgument .blankSql)
    else (checkAccess c kind sql).bind fun _ ↦ s.expanded sql

/-- Forget the warnings and close the current and the pending result. -/
def clearResults (s : Statement) (c : Context) : Statement × Context :=
  let (s, c) := { s with warnings := [] }.emptyCurrent c
  s.holdNext c none

/-- The command of an execution. -/
def command (sql : String) (cap : Int32) (f : Shape) : Command :=
  { sql, maxRows := cap, concurrency := f.concurrency, streaming := f.streaming,
    query := f.query, purpose := .text }

/-- The command that carries a row limit directive. -/
def limitCommand (directive : String) : Command :=
  { sql := directive, maxRows := noRowLimit, concurrency := .readOnly, streaming := false,
    query := false, purpose := .limit }

/-- Send a text behind the directive that its row limit needs. A refused directive keeps the
text from being sent. Spec §4.1, `dispatch_limited`. -/
def sendLimited (s : Statement) (c : Context) (sql : String) (f : Shape) :
    Except SqlError Packet × Context :=
  let plan :=
    Sql.LimitRoute.choose c.connection.limitsRows sql f.query s.settings.maxRows
  match plan.directive? with
  | none => c.send (command sql plan.cap f)
  | some d =>
    let c := (c.log (s.setup.logger.directive d s.id)).count s.setup.scope
      Metrics.addDirective
    match c.send (limitCommand d) with
    | (.error e, c) => (.error e, c)
    | (.ok ack, c) => (c.release ack).send (command sql plan.cap f)

/-- Send a text with the catalog of the statement selected, and select the former catalog
again. A packet is closed when that fails. Spec §4.1, `dispatch_in_catalog`. -/
def exchangeInCatalog (s : Statement) (c : Context) (sql : String) (f : Shape) :
    Except SqlError Packet × Context :=
  let former := c.connection.catalog
  if former = s.catalog then s.sendLimited c sql f
  else
    match c.connection.selectCatalog s.catalog with
    | .error e => (.error e, c)
    | .ok connection =>
      let (outcome, c) := s.sendLimited { c with connection } sql f
      match c.connection.selectCatalog former with
      | .ok connection => (outcome, { c with connection })
      | .error e =>
        let c := c.log [Log.restoreFailed former s.id e]
        match outcome with
        | .ok p => (.error e, c.release p)
        | .error e' => (.error e', c)

/-- Account for what a dispatch gave in the time that it took: a packet is counted and bound, and
its key and warnings are taken over; an error is counted and logged. Spec §10.4, the end of `run`. -/
def settle (s : Statement) (c : Context) (kind : StatementKind) (elapsed : Nat) :
    Except SqlError Packet → Outcome Packet
  | .ok p =>
    ⟨.ok (p.bind s.binding).withoutWarnings,
      { s with lastKey := p.head.generatedKey, warnings := p.head.warnings },
      c.count s.setup.scope fun m ↦ m.addStatement kind elapsed⟩
  | .error e =>
    ⟨.error e, s,
      (c.count s.setup.scope Metrics.addError).log
        (s.setup.logger.failure e.display (s.metadata kind))⟩

/-- An execution up to its packet. A mutex that cannot be taken ends it before anything is sent,
and such an end is neither counted nor logged as the failure of a command. Spec §4.1, `run`. -/
def obtain (s : Statement) (c : Context) (kind : StatementKind) (sql : String) : Outcome Packet :=
  match s.prepare c kind sql with
  | .error e => ⟨.error e, s, c⟩
  | .ok sql =>
    let (s, c) := s.clearResults c
    let c := c.log (s.setup.logger.statement .debug sql (s.metadata kind))
    match c.lock with
    | .error e => ⟨.error e, s, c⟩
    | .ok c =>
      let (outcome, c) := s.exchangeInCatalog c sql (s.shape kind sql)
      s.settle c.unlock kind c.connection.elapsed outcome

/-- Roll back after a packet of the wrong sort, unless the connection commits by itself. Only
the log tells when that fails. Spec §4.1, `rollback_quietly`. -/
def undo (s : Statement) (c : Context) : Context :=
  match s.usable c with
  | .error _ => c
  | .ok _ =>
    match c.lock with
    | .error e => c.log [Log.rollbackSkipped s.id e]
    | .ok c =>
      if c.connection.autoCommit then c.unlock
      else
        let (failure, connection) := c.connection.rollback
        let c := { c with connection }
        match failure with
        | some e => (c.log [Log.rollbackFailed s.id e]).unlock
        | none => c.unlock

/-- Close a packet of the wrong sort and roll back. -/
def reject (s : Statement) (c : Context) (p : Packet) : Context :=
  s.undo (c.release p)

/-- Execute any text; tell whether the current result carries rows. Spec §4.1, `execute`. -/
def execute (s : Statement) (c : Context) (sql : String) : Outcome Bool :=
  match s.obtain c .execute sql with
  | ⟨.error e, s, c⟩ => ⟨.error e, s, c⟩
  | ⟨.ok p, s, c⟩ =>
    let (s, c) := s.install c p
    ⟨.ok p.head.hasRows, s, c⟩

/-- Execute a query; give its first result, which is then the current one. Spec §4.1,
`execute_query`. -/
def query (s : Statement) (c : Context) (sql : String) : Outcome Packet :=
  match s.obtain c .query sql with
  | ⟨.error e, s, c⟩ => ⟨.error e, s, c⟩
  | ⟨.ok p, s, c⟩ =>
    if p.head.hasRows then
      let (s, c) := { s with pending := some p }.stepForward c
      ⟨.ok p.withoutNext, s, c⟩
    else ⟨.error .notAQuery, s, s.reject c p⟩

/-- Execute an update; give its count. Spec §10.6, `execute_large_update`. -/
def largeUpdate (s : Statement) (c : Context) (sql : String) : Outcome Int64 :=
  match s.obtain c .update sql with
  | ⟨.error e, s, c⟩ => ⟨.error e, s, c⟩
  | ⟨.ok p, s, c⟩ =>
    if p.head.hasRows then ⟨.error .expectedUpdateGotRows, s, s.reject c p⟩
    else
      let (s, c) := s.install c p
      ⟨.ok p.head.updateCount, s, c⟩

/-- Execute an update; give its count as a 32-bit integer. Spec §4.1, `execute_update`. -/
def update (s : Statement) (c : Context) (sql : String) : Outcome Int32 :=
  let o := s.largeUpdate c sql
  ⟨o.result.map narrowCount, o.statement, o.context⟩

/-- Execute any text and ask for generated keys. Spec §10.6, `execute_returning_keys`. -/
def executeForKeys (s : Statement) (c : Context) (sql : String) (_ : KeyRequest) :
    Outcome Bool :=
  s.execute c sql

/-- Execute an update and ask for generated keys. Spec §10.6, `execute_update_returning_keys`. -/
def updateForKeys (s : Statement) (c : Context) (sql : String) (_ : KeyRequest) :
    Outcome Int32 :=
  s.update c sql

end Statement

end SqlSession
