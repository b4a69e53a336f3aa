import SqlSession.Connection.Basic
import SqlSession.Metrics.Basic

/-!
# The shared connection

What all statements of a session share: the connection behind its mutex, the metrics, and a
journal of the hooks that ran and the lines that were logged, each with whether the mutex was
held. Statements do not own the connection; it is alive while the application or a running
batch holds it.

Specification: §5 and §10.4.
-/

namespace SqlSession

/-- An entry of the journal. -/
structure Entry where
  event : Event
  /-- The mutex of the connection was held. -/
  locked : Bool
  deriving DecidableEq

/-- Which metrics a statement counts in. Spec §10.4, `with_metrics` and `get_global_metrics`. -/
inductive Metrics.Scope where
  /-- Those of the session. -/
  | session
  /-- Those of the whole process. -/
  | process
  deriving DecidableEq

/-- The shared connection and what goes with it. -/
structure Context where
  connection : Connection
  /-- The application holds the connection. -/
  held : Bool := true
  /-- A running batch holds the connection. -/
  borrowed : Bool := false
  /-- A thread failed while it held the mutex, so nobody can take it any more. -/
  poisoned : Bool := false
  /-- The mutex is held. -/
  locked : Bool := false
  metrics : Metrics := {}
  processMetrics : Metrics := {}
  journal : List Entry := []

namespace Context

/-- Somebody holds the connection. Spec §3, the weak reference `owner`. -/
def alive (c : Context) : Bool := c.held || c.borrowed

/-- The context after the effect of a hook. Only an application that still holds the connection
can poison its mutex. -/
def undergo (c : Context) : Hook.Effect → Context
  | .poison => { c with poisoned := c.poisoned || c.held }
  | .dropConnection => { c with held := false }

/-- The context after an event. -/
def note (c : Context) (e : Event) : Context :=
  let c' := { c with journal := c.journal ++ [⟨e, c.locked⟩] }
  match e.hook?.bind Hook.effect with
  | some f => c'.undergo f
  | none => c'

/-- The context after events in their order. -/
def noteAll (c : Context) (es : List Event) : Context := es.foldl note c

/-- The context after lines were logged. -/
def log (c : Context) (rs : List Log.Record) : Context := c.noteAll (rs.map .logged)

/-- The context after a packet was closed while nobody waits for the outcome. Spec §5,
`close_quietly`. -/
def release (c : Context) (p : Packet) : Context := c.noteAll p.release.quietly

/-- The context after the packet in a slot, if there is one, was closed. -/
def releaseSlot (c : Context) : Option Packet → Context
  | some p => c.release p
  | none => c

/-- The context after packets were closed in their order. -/
def releaseAll (c : Context) (ps : List Packet) : Context := ps.foldl release c

/-- The context with the mutex held; a poisoned mutex cannot be taken. Spec §5,
`lock_connection`. -/
def lock (c : Context) : Except SqlError Context :=
  if c.poisoned then .error (.internal .lockFailed) else .ok { c with locked := true }

/-- The context with the mutex free. -/
def unlock (c : Context) : Context := { c with locked := false }

/-- The context with one count more in the metrics of the scope. -/
def count (c : Context) (scope : Metrics.Scope) (f : Metrics → Metrics) : Context :=
  match scope with
  | .session => { c with metrics := f c.metrics }
  | .process => { c with processMetrics := f c.processMetrics }

/-- Send a command over the connection. -/
def send (c : Context) (cmd : Command) : Except SqlError Packet × Context :=
  let q := c.connection.send cmd
  (q.1, { c with connection := q.2 })

/-- The hooks that have run, in their order. -/
def released (c : Context) : List Hook := c.journal.filterMap fun e ↦ e.event.hook?

/-- Events add up. -/
theorem noteAll_append (c : Context) (a b : List Event) :
    c.noteAll (a ++ b) = (c.noteAll a).noteAll b :=
  List.foldl_append

/-- An event adds its hook, if it is the run of one, to those that have run. -/
theorem released_note (c : Context) (e : Event) :
    (c.note e).released = c.released ++ e.hook?.toList := by
  have h : ({ c with journal := c.journal ++ [⟨e, c.locked⟩] } : Context).released =
      c.released ++ e.hook?.toList := by
    cases he : e.hook? <;> simp [released, List.filterMap_append, he]
  unfold note
  dsimp only
  split
  · next f _ => cases f <;> exact h
  · exact h

/-- Events add their hooks in order. -/
theorem released_noteAll (c : Context) (es : List Event) :
    (c.noteAll es).released = c.released ++ es.filterMap Event.hook? := by
  induction es generalizing c with
  | nil => simp [noteAll]
  | cons e r ih =>
    rw [noteAll, List.foldl_cons, ← noteAll, ih, released_note, List.append_assoc]
    congr 1
    cases he : e.hook? <;> simp [he]

/-- Lines of a log run no hook. -/
theorem released_log (c : Context) (rs : List Log.Record) :
    (c.log rs).released = c.released := by
  have h : (rs.map Event.logged).filterMap Event.hook? = [] := by
    induction rs with
    | nil => rfl
    | cons r t ih => simp [Event.hook?]
  rw [log, released_noteAll, h, List.append_nil]

end Context

end SqlSession
