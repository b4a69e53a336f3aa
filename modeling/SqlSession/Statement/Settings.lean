import SqlSession.Config.Basic
import SqlSession.Statement.Basic

/-!
# Settings of a statement

A setter gives the statement and the context after it or an error, so a refused change changes
nothing. A configuration goes through the setters one after the other and stops at the first
refusal.

Specification: §4.4 and §10.5.
-/

namespace SqlSession

/-- A change of a statement that may be refused. -/
abbrev Setter : Type := Statement → Context → Except SqlError (Statement × Context)

namespace Statement

/-- The statement with other settings. -/
def adjust (s : Statement) (f : Settings → Settings) : Statement :=
  { s with settings := f s.settings }

/-- Set the max field size, at most the packet budget of the connection. Spec §4.4,
`set_max_field_size`. -/
def setMaxFieldSize (v : Int32) : Setter := fun s c ↦
  (s.usable c).bind fun _ ↦
    if v < 0 then .error (.invalidArgument .maxFieldSize)
    else c.lock.bind fun l ↦
      if v.toInt > l.connection.packetBudget then
        .error (.limitExceeded v l.connection.packetBudget)
      else .ok (s.adjust ({ · with maxFieldSize := v }), l.unlock)

/-- Set the row limit, zero for none, and announce it to the connection. Spec §4.4,
`set_max_rows`. -/
def setMaxRows (v : Int32) : Setter := fun s c ↦
  (s.usable c).bind fun _ ↦
    if v < 0 ∨ greatestRowLimit < v then .error (.invalidArgument (.maxRows v greatestRowLimit))
    else c.lock.bind fun l ↦
      .ok (s.adjust ({ · with maxRows := if v = 0 then noRowLimit else v }),
        { l with connection := l.connection.announceLimit }.unlock)

/-- A fetch size is in order if it is the streaming marker, or neither negative nor above a
row limit. Spec §4.4, the checks of `set_fetch_size`. -/
def allowsFetchSize (s : Statement) (v : Int32) : Bool :=
  (decide (0 ≤ v) || v == streamRows)
    && (decide (s.settings.maxRows ≤ 0) || decide (v ≤ s.settings.maxRows))

/-- Set the fetch size: the streaming marker, or a size not above the row limit. Spec §4.4,
`set_fetch_size`. -/
def setFetchSize (v : Int32) : Setter := fun s c ↦
  (s.usable c).bind fun _ ↦
    if s.allowsFetchSize v then .ok (s.adjust ({ · with fetchSize := v }), c)
    else .error (.invalidArgument .fetchSize)

/-- Set the query timeout in seconds. Spec §4.4, `set_query_timeout`. -/
def setQueryTimeout (v : Int32) : Setter := fun s c ↦
  (s.usable c).bind fun _ ↦
    if v < 0 then .error (.invalidArgument .queryTimeout)
    else .ok (s.adjust ({ · with queryTimeout := v }), c)

/-- Accept a fetch direction; rows are read forward whatever it is. Spec §4.4,
`set_fetch_direction`. -/
def setFetchDirection (_ : FetchDirection) : Setter := fun s c ↦
  (s.usable c).map fun _ ↦ (s, c)

/-- Switch the expansion of escape clauses. Spec §4.4, `set_escape_processing`. -/
def setEscapeProcessing (on : Bool) : Setter := fun s c ↦
  (s.usable c).map fun _ ↦ (s.adjust ({ · with escapeProcessing := on }), c)

/-- Set the result set type of later executions. Spec §4.4, `set_result_set_type`. -/
def setResultSetType (t : ResultSetType) : Setter := fun s c ↦
  (s.usable c).map fun _ ↦ (s.adjust ({ · with resultSetType := t }), c)

/-- Set the concurrency of later executions. Spec §4.4, `set_result_set_concurrency`. -/
def setConcurrency (t : Concurrency) : Setter := fun s c ↦
  (s.usable c).map fun _ ↦ (s.adjust ({ · with concurrency := t }), c)

/-- The setters of a configuration in their order. A row limit of zero leaves the row limit of
the statement as it is. Spec §10.5, `apply_config`. -/
def configSetters (g : Config) : List Setter :=
  (g.maxFieldSize.toList.map setMaxFieldSize)
    ++ (if g.maxRows = 0 then [] else [setMaxRows g.maxRows])
    ++ [setFetchSize g.fetchSize, setQueryTimeout g.queryTimeout,
      setEscapeProcessing g.escapeProcessing, setResultSetType g.resultSetType,
      setConcurrency g.concurrency]

/-- Run setters up to the first that is refused. -/
def runSetters (s : Statement) (c : Context) : List Setter → Outcome Unit
  | [] => ⟨.ok (), s, c⟩
  | f :: r =>
    match f s c with
    | .ok (s, c) => s.runSetters c r
    | .error e => ⟨.error e, s, c⟩

/-- Run every configured value through its setter. Spec §10.5, `apply_config`. -/
def configure (s : Statement) (c : Context) (g : Config) : Outcome Unit :=
  s.runSetters c (configSetters g)

/-- The max field size. Spec §4.4, `max_field_size`. -/
def maxFieldSize (s : Statement) (c : Context) : Except SqlError Int32 :=
  s.read c (·.settings.maxFieldSize)

/-- The row limit, zero for none. Spec §4.4, `max_rows`. -/
def maxRows (s : Statement) (c : Context) : Except SqlError Int32 :=
  s.read c fun s ↦ if s.settings.maxRows < 0 then 0 else s.settings.maxRows

/-- The fetch size. Spec §4.4, `fetch_size`. -/
def fetchSize (s : Statement) (c : Context) : Except SqlError Int32 :=
  s.read c (·.settings.fetchSize)

/-- The query timeout. Spec §4.4, `query_timeout`. -/
def queryTimeout (s : Statement) (c : Context) : Except SqlError Int32 :=
  s.read c (·.settings.queryTimeout)

/-- The fetch direction, which is always forward. Spec §10.6, `fetch_direction`. -/
def fetchDirection (s : Statement) (c : Context) : Except SqlError FetchDirection :=
  s.read c fun _ ↦ .forward

/-- Whether escape clauses are expanded. Spec §4.4, `escape_processing`. -/
def escapeProcessing (s : Statement) (c : Context) : Except SqlError Bool :=
  s.read c (·.settings.escapeProcessing)

/-- The result set type. Spec §4.4, `result_set_type`. -/
def resultSetType (s : Statement) (c : Context) : Except SqlError ResultSetType :=
  s.read c (·.settings.resultSetType)

/-- The concurrency. Spec §4.4, `result_set_concurrency`. -/
def concurrency (s : Statement) (c : Context) : Except SqlError Concurrency :=
  s.read c (·.settings.concurrency)

/-- The holdability of results, which is always over commits. Spec §10.6,
`result_set_holdability`. -/
def holdability (s : Statement) (c : Context) : Except SqlError Holdability :=
  s.read c fun _ ↦ .holdCursorsOverCommit

end Statement

end SqlSession
