import SqlSession.Metrics.Latency
import SqlSession.Options

/-!
# Metrics

Counters of what statements did, and the latency of their dispatches.

The counters are natural numbers. Each is kept in 64 bits and goes up by one with a call, so 2^64
calls would have to be made to take one out of its range, which is not modelled. The sum of the
durations can leave its range much sooner; `Latency.record?` says where it and their number end.

Specification: §10.4.
-/

namespace SqlSession

/-- Counters, none of which gets as far as the end of 64 bits, and latency statistics. Spec §10.4,
`Metrics`. -/
structure Metrics where
  latency : Latency := {}
  executes : Nat := 0
  queries : Nat := 0
  updates : Nat := 0
  errors : Nat := 0
  /-- Round trips spent on row limit directives. -/
  limitDirectives : Nat := 0
  batchFailures : Nat := 0
  deriving DecidableEq

namespace Metrics

/-- How often the kind of statement was counted. Spec §10.4, `get_statement_count`. -/
def statements (m : Metrics) : StatementKind → Nat
  | .execute => m.executes
  | .query => m.queries
  | .update => m.updates

/-- One more statement of the kind, without its latency. -/
def countStatement (m : Metrics) : StatementKind → Metrics
  | .execute => { m with executes := m.executes + 1 }
  | .query => { m with queries := m.queries + 1 }
  | .update => { m with updates := m.updates + 1 }

/-- One more statement of the kind that took the duration. Spec §10.4, `record_statement`. -/
def addStatement (m : Metrics) (kind : StatementKind) (d : Nat) : Metrics :=
  { m.countStatement kind with latency := m.latency.record d }

/-- One more statement of the kind, nothing if a latency figure leaves its range. -/
def addStatement? (m : Metrics) (kind : StatementKind) (d : Nat) : Option Metrics :=
  (m.latency.record? d).map fun l ↦ { m.countStatement kind with latency := l }

/-- One more execution without a packet. Spec §10.4, `record_error`. -/
def addError (m : Metrics) : Metrics := { m with errors := m.errors + 1 }

/-- One more row limit directive. Spec §10.4, `record_limit_directive`. -/
def addDirective (m : Metrics) : Metrics :=
  { m with limitDirectives := m.limitDirectives + 1 }

/-- One more batch with failed entries. Spec §10.4, `record_batch_failure`. -/
def addFailedBatch (m : Metrics) : Metrics :=
  { m with batchFailures := m.batchFailures + 1 }

end Metrics

end SqlSession
