import SqlSession.Packet.Release
import SqlSession.Sql.RowLimit

/-!
# Connections

A connection in memory that answers commands by rules. It keeps a record of every command it
took, with the catalog that was selected and why the command was sent; of catalog changes,
rollbacks and row limit announcements. The hooks of its packets get numbers that are never
used again.

Specification: §6 and §10.7.
-/

namespace SqlSession

/-- Why a command is sent. -/
inductive Purpose where
  /-- It sets or resets the row limit of the session before a statement. -/
  | limit
  /-- It is the text of a statement. -/
  | text
  /-- The application sends it around all statements. -/
  | direct
  deriving DecidableEq

/-- A command for a connection. -/
structure Command where
  sql : String
  /-- The cap on the rows of the answer, -1 for none. -/
  maxRows : Int32
  concurrency : Concurrency
  streaming : Bool
  query : Bool
  purpose : Purpose
  deriving DecidableEq

/-- The record of a command that a connection took. Spec §10.7, `DispatchRecord`. -/
structure Dispatch where
  command : Command
  /-- The catalog that was selected. -/
  catalog : String
  /-- The answer was a packet and not an error. -/
  accepted : Bool
  deriving DecidableEq

/-- An answer to all commands whose text holds the pattern. -/
structure Rule where
  pattern : String
  answer : String → Except SqlError Packet

/-- A connection. Spec §10.7, `ScriptedConnection`. -/
structure Connection where
  catalog : String
  readOnly : Bool := false
  autoCommit : Bool := true
  /-- The session uses row limits; set by the first notification and never reset. -/
  limitsRows : Bool := false
  packetBudget : Nat := defaultPacketBudget
  closed : Bool := false
  /-- Every rollback is refused. -/
  failRollback : Bool := false
  /-- The catalog that cannot be selected. -/
  missingCatalog : Option String := none
  rules : List Rule := []
  dispatches : List Dispatch := []
  /-- Every catalog that was selected, in order. -/
  selections : List String := []
  rollbacks : Nat := 0
  /-- How often a row limit was announced. -/
  announcements : Nat := 0
  /-- The number of hooks issued so far. -/
  issued : Nat := 0
  /-- How long an exchange takes, in nanoseconds, by the number of records behind it. -/
  pace : Nat → Nat := fun _ ↦ 0

namespace Connection

/-- The answer where no rule fits: one row to a query, one changed row to anything else. Spec §10.7,
`default_response`. -/
def defaultAnswer (sql : String) : Packet :=
  if Sql.startsQuery sql then ⟨.ofRows (RowTable.single "1" .integer ['1']), []⟩
  else ⟨.ofUpdate 1 noKey, []⟩

/-- The answer of the first rule whose pattern the text holds. -/
def answer (c : Connection) (sql : String) : Except SqlError Packet :=
  match c.rules.find? fun r ↦ Text.containsText r.pattern sql with
  | some r => r.answer sql
  | none => .ok (defaultAnswer sql)

/-- Send a command. A closed connection refuses without a record. Spec §6, `execute`. -/
def send (c : Connection) (cmd : Command) : Except SqlError Packet × Connection :=
  if c.closed then (.error .connectionClosed, c)
  else
    match c.answer cmd.sql with
    | .ok p =>
      let q := p.issue c.issued
      (.ok q.1, { c with
        dispatches := c.dispatches ++ [⟨cmd, c.catalog, true⟩]
        issued := q.2 })
    | .error e => (.error e, { c with dispatches := c.dispatches ++ [⟨cmd, c.catalog, false⟩] })

/-- The refusal to select a catalog. -/
def unknownCatalog (catalog : String) : SqlError :=
  .structured (.ascii '4' '2' '0' '0' '0') 1049 ("Unknown database '" ++ catalog ++ "'")

/-- Select a catalog. Spec §6, `set_catalog`. -/
def selectCatalog (c : Connection) (catalog : String) : Except SqlError Connection :=
  if c.missingCatalog = some catalog then .error (unknownCatalog catalog)
  else .ok { c with catalog := catalog, selections := c.selections ++ [catalog] }

/-- The refusal of a rollback. -/
def lostInRollback : SqlError :=
  .structured (.ascii '0' '8' 'S' '0' '1') 2013 "Lost connection during rollback"

/-- Roll back; the attempt counts whatever comes of it. Spec §6, `rollback`. -/
def rollback (c : Connection) : Option SqlError × Connection :=
  (if c.failRollback then some lostInRollback else none, { c with rollbacks := c.rollbacks + 1 })

/-- The time that the exchange took which has just ended. -/
def elapsed (c : Connection) : Nat := c.pace c.dispatches.length

/-- Announce that a row limit changed. Spec §6, `max_rows_changed`. -/
def announceLimit (c : Connection) : Connection :=
  { c with limitsRows := true, announcements := c.announcements + 1 }

end Connection

end SqlSession
