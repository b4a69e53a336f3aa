import SqlSession.Statement.Execute
import SqlSession.Statement.Settings

/-!
# Operations of a session

What an application can do with statements and with the connection beside them, and the
answers it gets.

Specification: §6.
-/

namespace SqlSession

/-- A change of one setting. -/
inductive Setting where
  | maxFieldSize (value : Int32)
  | maxRows (value : Int32)
  | fetchSize (value : Int32)
  | queryTimeout (value : Int32)
  | fetchDirection (value : FetchDirection)
  | escapeProcessing (on : Bool)
  | resultSetType (value : ResultSetType)
  | concurrency (value : Concurrency)
  deriving DecidableEq

/-- The setter of a change. -/
def Setting.setter : Setting → Setter
  | maxFieldSize v => Statement.setMaxFieldSize v
  | maxRows v => Statement.setMaxRows v
  | fetchSize v => Statement.setFetchSize v
  | queryTimeout v => Statement.setQueryTimeout v
  | fetchDirection d => Statement.setFetchDirection d
  | escapeProcessing on => Statement.setEscapeProcessing on
  | resultSetType t => Statement.setResultSetType t
  | concurrency t => Statement.setConcurrency t

/-- A call of a statement. -/
inductive Call where
  | execute (sql : String) (keys : Option KeyRequest)
  | query (sql : String)
  | update (sql : String) (keys : Option KeyRequest)
  | largeUpdate (sql : String)
  | more (mode : MoreResults)
  | result
  | serve (request : Packet.Request)
  | generatedKeys
  | warnings
  | forgetWarnings
  | enqueue (sql : String)
  | clearQueue
  | runBatch
  | close
  | connection
  | configure (config : Config)
  | set (setting : Setting)
  | setCursorName (name : String)
  | cancel

/-- What a call gives when it succeeds. -/
inductive Answer where
  | done
  | flag (value : Bool)
  | count (value : Int32)
  | largeCount (value : Int64)
  | packet (value : Packet)
  | result (value : Option Packet)
  | reply (value : Option Packet.Reply)
  | warnings (value : Warnings)
  | counts (values : List Int32)
  /-- A statement was made: its number and its place. -/
  | made (id place : Nat)
  /-- The statement is not there. -/
  | noStatement
  /-- The application has given up the connection. -/
  | noConnection
  deriving DecidableEq

/-- What a new statement starts from. -/
inductive Origin where
  /-- The selected catalog. -/
  | plain
  /-- A named catalog. -/
  | catalog (name : String)
  /-- The selected catalog and a configuration. -/
  | config (config : Config)

/-- The catalog that an origin names. -/
def Origin.catalog? : Origin → Option String
  | .catalog name => some name
  | _ => none

/-- What the application does with the connection itself. -/
inductive ConnectionCall where
  | setReadOnly (on : Bool)
  | setAutoCommit (on : Bool)
  | setClosed (on : Bool)
  | selectCatalog (name : String)
  | rollback
  | announceLimit
  | execute (command : Command)

/-- One operation of a session. -/
inductive Operation where
  | make (origin : Origin) (setup : Setup)
  | call (place : Nat) (call : Call)
  /-- The statement in a place is dropped, which closes it. A place that is empty already stays
  so. -/
  | drop (place : Nat)
  | connection (call : ConnectionCall)
  /-- A thread of the application fails while it holds the mutex. Nothing happens once the
  application has given up the connection. -/
  | poison
  /-- The application gives up the connection. -/
  | dropConnection

end SqlSession
