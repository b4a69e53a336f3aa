import SqlSession.Connection.Context
import SqlSession.Sql.Escape

/-!
# Statements

A statement belongs to a catalog, has settings, and holds the results of its executions: the
current one, one that comes next together with what follows it, and those that a caller asked
to keep. It does not own its connection, and every operation on it first checks that neither
the statement nor the connection is gone.

Specification: §3.
-/

namespace SqlSession

/-- The settings of a statement. -/
structure Settings where
  maxFieldSize : Int32
  /-- The row limit, -1 for none. -/
  maxRows : Int32 := noRowLimit
  fetchSize : Int32 := 0
  queryTimeout : Int32 := 0
  escapeProcessing : Bool := true
  resultSetType : ResultSetType := .forwardOnly
  concurrency : Concurrency := .readOnly
  deriving DecidableEq

/-- Rows are asked for one by one: forward only, read only, and the fetch size that says so.
Spec §4.4, `is_streaming`. -/
def Settings.streaming (t : Settings) : Bool :=
  t.resultSetType == .forwardOnly && t.concurrency == .readOnly
    && t.fetchSize == streamRows

/-- A way to expand the escape clauses of a text. Spec §6, `EscapeProcessor`. -/
abbrev Escaper : Type := String → Except SqlError String

/-- What a statement works with besides its connection. -/
structure Setup where
  escaper : Escaper := Sql.expandText
  scope : Metrics.Scope := .session
  logger : Log.Logger := {}

/-- A statement. Spec §3, `Statement`. -/
structure Statement where
  id : Nat
  catalog : String
  settings : Settings
  setup : Setup := {}
  /-- The statement still refers to its connection. -/
  attached : Bool := true
  current : Option Packet := none
  pending : Option Packet := none
  retained : List Packet := []
  queue : List String := []
  lastKey : Int64 := noKey
  warnings : Warnings := []
  closed : Bool := false

/-- The outcome of an operation, and the statement and its surroundings after it. -/
structure Outcome (α : Type) where
  result : Except SqlError α
  statement : Statement
  context : Context

namespace Statement

/-- A statement can be used while it is not closed and its connection is alive. Spec §10.6,
`check_closed`. -/
def usable (s : Statement) (c : Context) : Except SqlError Unit :=
  if s.closed then .error .onClosedStatement
  else if s.attached && c.alive then .ok ()
  else .error .connectionClosed

/-- A value of a statement that can be used. -/
def read {α : Type} (s : Statement) (c : Context) (f : Statement → α) : Except SqlError α :=
  (s.usable c).map fun _ ↦ f s

/-- A new statement for a catalog, the selected one unless another is named. Spec §10.6, `new` and
`with_catalog`. -/
def create (c : Context) (id : Nat) (catalog : Option String) : Except SqlError Statement :=
  match c.lock with
  | .error e => .error e
  | .ok c =>
    if c.connection.closed then .error .connectionClosed
    else
      let maxFieldSize :=
        (Decimal.toInt32? c.connection.packetBudget).getD Int32.maxValue
      .ok { id, catalog := catalog.getD c.connection.catalog, settings := { maxFieldSize } }

/-- What the results of the statement are bound to. -/
def binding (s : Statement) : Binding :=
  ⟨some s.id, s.settings.resultSetType, s.settings.concurrency⟩

/-- The facts that log lines about an execution carry. Spec §10.3, `log_metadata`. -/
def metadata (s : Statement) (kind : StatementKind) : Log.Metadata :=
  [("statement_id", Decimal.text s.id), ("catalog", s.catalog), ("kind", kind.word)]

/-- Every hook that the statement still has to run. -/
def hooks (s : Statement) : List Hook :=
  (s.current.toList ++ s.pending.toList ++ s.retained).flatMap Packet.hooks

/-- Release everything, forget the connection, and refuse all work from now on. Spec §4.2,
`close`. -/
def close (s : Statement) (c : Context) : Statement × Context :=
  if s.closed then (s, c)
  else
    let c := ((c.releaseSlot s.current).releaseSlot s.pending).releaseAll s.retained
    ({ s with
        attached := false, current := none, pending := none, retained := [], queue := [],
        warnings := [], closed := true },
      c.log [Log.statementClosed s.id])

end Statement

end SqlSession
