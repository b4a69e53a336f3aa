import SqlSession.Log
import SqlSession.Packet.Cursor

/-!
# Releasing a packet

Closing a packet closes its responses from the last to the first. The hook of a response runs
when it closes; a hook that fails is reported to the caller for the first response and only
logged for the others. A closed packet stays closed and runs nothing.

Specification: §10.7.
-/

namespace SqlSession

/-- What happens outside the values of the library: a hook runs, or a line is logged. -/
inductive Event where
  | released (hook : Hook)
  | logged (record : Log.Record)
  deriving DecidableEq

/-- The hook that ran, if the event is one. -/
def Event.hook? : Event → Option Hook
  | released h => some h
  | logged _ => none

/-- The line that was logged, if the event is one. -/
def Event.record? : Event → Option Log.Record
  | released _ => none
  | logged r => some r

/-- The course and the outcome of closing. -/
structure Release where
  events : List Event := []
  failure : Option SqlError := none
  deriving DecidableEq

/-- The events when nobody waits for the outcome: a failure is logged. Spec §10.7,
`close_quietly`. -/
def Release.quietly (r : Release) : List Event :=
  match r.failure with
  | some e => r.events ++ [.logged (Log.ignoredRelease e)]
  | none => r.events

/-- Close responses that stand in a chain. Each one closes those behind it before its own hook
runs, and what is closed already is left alone. Spec §10.7, `close`. -/
def Response.releaseChain : List Response → Release
  | [] => {}
  | r :: rest =>
    if r.closed then {}
    else
      let inner := (releaseChain rest).quietly
      match r.release with
      | some h => ⟨inner ++ [.released h], h.failure⟩
      | none => ⟨inner, none⟩

/-- The response after it was closed: without rows, cursor and hook. -/
def Response.shut (r : Response) : Response :=
  { r with rows := none, cursor := none, closed := true, release := none }

/-- Logging a failure runs no further hook. -/
theorem Release.hooks_quietly (r : Release) :
    r.quietly.filterMap Event.hook? = r.events.filterMap Event.hook? := by
  unfold quietly
  split <;> simp [List.filterMap_append, Event.hook?]

/-- Closing open responses runs all their hooks, the last one first. -/
theorem Response.hooks_releaseChain {l : List Response} (h : ∀ r ∈ l, r.closed = false) :
    (releaseChain l).events.filterMap Event.hook? = (l.filterMap Response.release).reverse := by
  induction l with
  | nil => rfl
  | cons r t ih =>
    have hr : r.closed = false := h r (by simp)
    have ht := ih fun x hx ↦ h x (by simp [hx])
    unfold releaseChain
    rw [hr]
    cases hh : r.release <;>
      simp [hh, Release.hooks_quietly, ht, List.filterMap_append, Event.hook?]

namespace Packet

/-- The course and the outcome of closing the packet. -/
def release (p : Packet) : Release := Response.releaseChain p.toList

/-- The packet after it was closed. Spec §10.7, `close`. -/
def close (p : Packet) : Packet :=
  if p.head.closed then p else ⟨p.head.shut, []⟩

/-- A closed packet holds no hook. -/
theorem hooks_close {p : Packet} (h : p.head.closed = false) : p.close.hooks = [] := by
  simp [close, h, hooks, toList, Response.shut]

/-- What a caller can ask of a packet. -/
inductive Request where
  | next
  | bytes (column : Nat)
  | text (column : Nat)
  | integer (column : Nat)
  | find (name : String)
  | takeWarnings
  | close
  | describe
  | dump
  deriving DecidableEq

/-- What a packet replies to a request. -/
inductive Reply where
  | flag (value : Bool)
  | bytes (value : Cell)
  | text (value : Option (List Char))
  | integer (value : Option Int64)
  | column (number : Nat)
  | warnings (value : Warnings)
  | done
  | table (value : Option RowTable)
  deriving DecidableEq

/-- The reply to a request, the packet after it, and what happened meanwhile. -/
structure Served where
  reply : Except SqlError Reply
  packet : Packet
  events : List Event := []

/-- Serve a request. -/
def serve (p : Packet) : Request → Served
  | .next =>
    match p.head.advance with
    | .ok (b, r) => ⟨.ok (.flag b), { p with head := r }, []⟩
    | .error e => ⟨.error e, p, []⟩
  | .bytes column => ⟨(p.head.cell column).map .bytes, p, []⟩
  | .text column => ⟨(p.head.cellText column).map .text, p, []⟩
  | .integer column => ⟨(p.head.cellInt column).map .integer, p, []⟩
  | .find name => ⟨(p.head.columnNumber name).map .column, p, []⟩
  | .takeWarnings => ⟨.ok (.warnings p.head.warnings), p.withoutWarnings, []⟩
  | .close =>
    let r := p.release
    match r.failure with
    | some e => ⟨.error e, p.close, r.events⟩
    | none => ⟨.ok .done, p.close, r.events⟩
  | .describe => ⟨.ok .done, p, []⟩
  | .dump => ⟨.ok (.table p.head.rows), p, []⟩

/-- A packet that is asked to close is closed, with all that happens meanwhile. -/
theorem serve_close (p : Packet) :
    (p.serve .close).packet = p.close ∧ (p.serve .close).events = p.release.events := by
  unfold serve
  dsimp only
  split <;> exact ⟨rfl, rfl⟩

/-- Any other request changes nothing but the cursor and the warnings of the first response. -/
theorem serve_reading (p : Packet) {q : Request} (h : q ≠ .close) :
    (p.serve q).events = [] ∧
      ∃ cursor warnings,
        (p.serve q).packet = { p with head := { p.head with cursor, warnings } } := by
  cases q with
  | close => exact absurd rfl h
  | next =>
    unfold serve Response.advance
    cases p.head.ensureOpen with
    | error e => exact ⟨rfl, _, _, rfl⟩
    | ok u => exact ⟨rfl, _, _, rfl⟩
  | _ => exact ⟨rfl, _, _, rfl⟩

end Packet

end SqlSession
