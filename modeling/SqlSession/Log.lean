import SqlSession.Error

/-!
# Log records

The lines that statements write to a log, each with its level. A logger that is switched off
writes none of its own; the lines that do not go through a logger are always written.

Specification: §10.3.
-/

namespace SqlSession.Log

/-- How urgent a record is. -/
inductive Level where
  | error
  | warn
  | info
  | debug
  | trace
  deriving DecidableEq

/-- One line of a log. -/
structure Record where
  level : Level
  text : String
  deriving DecidableEq

/-- Named facts about a statement, written behind a line in the order of their names. -/
abbrev Metadata : Type := List (String × String)

/-- The facts as they follow a line, sorted by name. Spec §10.3, `with_metadata`. -/
def Metadata.text (m : Metadata) : String :=
  String.join ((m.mergeSort fun a b ↦ !decide (b.1 < a.1)).map fun p ↦ ", " ++ p.1 ++ "=" ++ p.2)

/-- A logger that can be switched off. Spec §10.3, `StructuredLogger`. -/
structure Logger where
  enabled : Bool := true
  deriving DecidableEq

namespace Logger

/-- The record if the logger is on. -/
def write (l : Logger) (r : Record) : List Record := if l.enabled then [r] else []

/-- The text of a statement that is about to be sent. Spec §10.3, `log_statement`. -/
def statement (l : Logger) (level : Level) (sql : String) (m : Metadata) : List Record :=
  l.write ⟨level, "Statement: " ++ sql ++ m.text⟩

/-- A row limit directive that is about to be sent. Spec §10.3, `log_directive`. -/
def directive (l : Logger) (directive : String) (id : Nat) : List Record :=
  l.write ⟨.debug,
    "Row limit directive: " ++ directive ++ ", statement_id=" ++ Decimal.text id⟩

/-- An execution that failed. Spec §10.3, `log_error`. -/
def failure (l : Logger) (error : String) (m : Metadata) : List Record :=
  l.write ⟨.error, "Error: " ++ error ++ m.text⟩

/-- A batch that ended, with the number of its entries and of those that failed. Spec §10.3,
`log_batch`. -/
def batch (l : Logger) (id entries failed : Nat) : List Record :=
  l.write <|
    if failed > 0 then
      ⟨.warn, "Batch finished with " ++ Decimal.text failed ++ " of " ++ Decimal.text entries
        ++ " commands failed, statement_id=" ++ Decimal.text id⟩
    else
      ⟨.info, "Batch finished: " ++ Decimal.text entries ++ " commands, statement_id="
        ++ Decimal.text id⟩

end Logger

/-- A result whose release failed while nobody waited for its outcome. Spec §10.3,
`close_quietly`. -/
def ignoredRelease (e : SqlError) : Record :=
  ⟨.debug, "Ignoring failure while releasing result: " ++ e.display⟩

/-- A catalog that could not be selected again after an execution. Spec §10.3,
`dispatch_in_catalog`. -/
def restoreFailed (catalog : String) (id : Nat) (e : SqlError) : Record :=
  ⟨.warn, "Failed to restore catalog '" ++ catalog ++ "' after statement " ++ Decimal.text id
    ++ ": " ++ e.display⟩

/-- A rollback that the server refused. Spec §10.3, `rollback_quietly`. -/
def rollbackFailed (id : Nat) (e : SqlError) : Record :=
  ⟨.warn, "Rollback after statement " ++ Decimal.text id ++ " failed: " ++ e.display⟩

/-- A rollback that was not tried. Spec §10.3, `rollback_quietly`. -/
def rollbackSkipped (id : Nat) (e : SqlError) : Record :=
  ⟨.warn, "Rollback after statement " ++ Decimal.text id ++ " skipped: " ++ e.display⟩

/-- A batch entry that failed. Spec §10.3, `execute_batch`. -/
def batchEntryFailed (id : Nat) (e : SqlError) : Record :=
  ⟨.debug, "Batch entry failed on statement " ++ Decimal.text id ++ ": " ++ e.display⟩

/-- A statement that was closed. Spec §10.3, `close`. -/
def statementClosed (id : Nat) : Record :=
  ⟨.trace, "Statement " ++ Decimal.text id ++ " closed"⟩

/-- A configuration property that nothing knows. Spec §10.3, `apply_properties`. -/
def unknownProperty (key : String) : Record :=
  ⟨.debug, "Ignoring unknown statement property '" ++ key ++ "'"⟩

end SqlSession.Log
