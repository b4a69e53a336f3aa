import SqlSession.Session.Operation
import SqlSession.Statement.Batch

/-!
# Sessions

Any number of statements over one shared connection. `Session.step` runs one operation and
gives its answer; statements are numbered in the order in which they were made, and a dropped
one leaves its place empty.

Specification: §5 and §6.
-/

namespace SqlSession

namespace Outcome

/-- The outcome with its value as an answer. -/
def answer {α : Type} (o : Outcome α) (f : α → Answer) : Outcome Answer :=
  ⟨o.result.map f, o.statement, o.context⟩

end Outcome

namespace Statement

/-- The answer of an operation that changes nothing. -/
def peek {α : Type} (s : Statement) (c : Context) (r : Except SqlError α) (f : α → Answer) :
    Outcome Answer :=
  ⟨r.map f, s, c⟩

/-- Run a setter. -/
def change (s : Statement) (c : Context) (f : Setter) : Outcome Unit := s.runSetters c [f]

/-- Run a call. -/
def perform (s : Statement) (c : Context) : Call → Outcome Answer
  | .execute sql none => (s.execute c sql).answer .flag
  | .execute sql (some keys) => (s.executeForKeys c sql keys).answer .flag
  | .query sql => (s.query c sql).answer .packet
  | .update sql none => (s.update c sql).answer .count
  | .update sql (some keys) => (s.updateForKeys c sql keys).answer .count
  | .largeUpdate sql => (s.largeUpdate c sql).answer .largeCount
  | .more mode => (s.advance c mode).answer .flag
  | .result => s.peek c (s.currentRows c) .result
  | .serve q => (s.serveCurrent c q).answer .reply
  | .generatedKeys => s.peek c (s.generatedKeys c) .packet
  | .warnings => s.peek c (s.currentWarnings c) .warnings
  | .forgetWarnings => (s.forgetWarnings c).answer fun _ ↦ .done
  | .enqueue sql => (s.enqueue c sql).answer fun _ ↦ .done
  | .clearQueue => (s.clearQueue c).answer fun _ ↦ .done
  | .runBatch => (s.runBatch c).answer .counts
  | .close => ⟨.ok .done, (s.close c).1, (s.close c).2⟩
  | .connection => s.peek c (s.usable c) fun _ ↦ .flag true
  | .configure g => (s.configure c g).answer fun _ ↦ .done
  | .set v => (s.change c v.setter).answer fun _ ↦ .done
  | .setCursorName _ => s.peek c (s.usable c) fun _ ↦ .done
  | .cancel => s.peek c (s.usable c) fun _ ↦ .done

end Statement

/-- The statements of a session and what they share. -/
structure Session where
  context : Context
  /-- The statements in the order of their making. -/
  statements : List (Option Statement) := []
  /-- The number of statements made so far. -/
  made : Nat := 0

namespace Session

/-- A session over a fresh connection. -/
def start (connection : Connection) : Session := { context := { connection } }

/-- The statement in a place. -/
def statement? (s : Session) (place : Nat) : Option Statement := (s.statements[place]?).join

/-- Every hook that a statement of the session still has to run. -/
def hooks (s : Session) : List Hook := s.statements.flatMap fun t ↦ t.toList.flatMap Statement.hooks

/-- The session after a statement was made and put into the next place. -/
def place (s : Session) (t : Statement) (c : Context) (setup : Setup) :
    Except SqlError Answer × Session :=
  (.ok (.made t.id s.statements.length),
    { context := c, statements := s.statements ++ [some { t with setup }], made := s.made + 1 })

/-- Make a statement. One whose configuration is refused is dropped again and keeps its
number. -/
def make (s : Session) (origin : Origin) (setup : Setup) : Except SqlError Answer × Session :=
  match Statement.create s.context (s.made + 1) origin.catalog? with
  | .error e => (.error e, s)
  | .ok t =>
    match origin with
    | .config g =>
      match t.configure s.context g with
      | ⟨.ok _, t, c⟩ => s.place t c setup
      | ⟨.error e, t, c⟩ => (.error e, { s with context := (t.close c).2, made := s.made + 1 })
    | _ => s.place t s.context setup

/-- Run a call of the connection around all statements. -/
def connectionCall (c : Context) : ConnectionCall → Except SqlError Answer × Context
  | .setReadOnly on => (.ok .done, { c with connection := { c.connection with readOnly := on } })
  | .setAutoCommit on =>
    (.ok .done, { c with connection := { c.connection with autoCommit := on } })
  | .setClosed on => (.ok .done, { c with connection := { c.connection with closed := on } })
  | .selectCatalog name =>
    match c.connection.selectCatalog name with
    | .ok connection => (.ok .done, { c with connection })
    | .error e => (.error e, c)
  | .rollback =>
    let (failure, connection) := c.connection.rollback
    match failure with
    | some e => (.error e, { c with connection })
    | none => (.ok .done, { c with connection })
  | .announceLimit => (.ok .done, { c with connection := c.connection.announceLimit })
  | .execute cmd =>
    let (outcome, c) := c.send cmd
    (outcome.map .packet, c)

/-- Run one operation. -/
def step (s : Session) : Operation → Except SqlError Answer × Session
  | .make origin setup =>
    if s.context.held then s.make origin setup else (.ok .noConnection, s)
  | .call place call =>
    match s.statement? place with
    | none => (.ok .noStatement, s)
    | some t =>
      let o := t.perform s.context call
      (o.result,
        { s with context := o.context, statements := s.statements.set place o.statement })
  | .drop place =>
    match s.statements[place]? with
    | none => (.ok .noStatement, s)
    | some none => (.ok .done, s)
    | some (some t) =>
      (.ok .done,
        { s with context := (t.close s.context).2, statements := s.statements.set place none })
  | .connection call =>
    if s.context.held then
      let (answer, c) := connectionCall s.context call
      (answer, { s with context := c })
    else (.ok .noConnection, s)
  | .poison => (.ok .done, { s with context := s.context.undergo .poison })
  | .dropConnection => (.ok .done, { s with context := s.context.undergo .dropConnection })

/-- Run operations in their order. -/
def run (s : Session) (ops : List Operation) : Session :=
  ops.foldl (fun s op ↦ (s.step op).2) s

end Session

end SqlSession
