import SqlSession.Text.Ascii
import SqlSession.Text.Decimal
import SqlSession.Text.Utf8

/-!
# Errors of a statement

Every failure is a cause; its wording, its SQLSTATE, its native code and the advice on how to
go on are functions of it. Errors that a server or a release hook reports carry their own
text.

Specification: §7 and §10.2.
-/

namespace SqlSession

/-- A five-byte SQLSTATE; the bytes need not be text. Spec §10.2, `sqlstate`. -/
structure SqlState where
  bytes : Vector UInt8 5
  deriving DecidableEq

namespace SqlState

/-- The SQLSTATE of five ASCII characters. -/
def ascii (a b c d e : Char) : SqlState :=
  ⟨#v[a.val.toUInt8, b.val.toUInt8, c.val.toUInt8, d.val.toUInt8, e.val.toUInt8]⟩

/-- Illegal argument, also used for calls that do not fit the statement. Spec §10.2,
`SQLSTATE_ILLEGAL_ARGUMENT`. -/
def illegalArgument : SqlState := ascii 'S' '1' '0' '0' '9'

/-- General error. Spec §10.2, `SQLSTATE_GENERAL_ERROR`. -/
def generalError : SqlState := ascii 'S' '1' '0' '0' '0'

/-- The connection does not exist. Spec §10.2, `SQLSTATE_CONNECTION_CLOSED`. -/
def connectionClosed : SqlState := ascii '0' '8' '0' '0' '3'

/-- An update that returned rows. Spec §10.2, `SQLSTATE_UPDATE_RETURNED_ROWS`. -/
def updateReturnedRows : SqlState := ascii '0' '1' 'S' '0' '3'

/-- A general warning. Spec §10.7, `SqlWarning`. -/
def generalWarning : SqlState := ascii '0' '1' '0' '0' '0'

/-- Serialization failure: a deadlock or a lock wait that ran out. -/
def serializationFailure : SqlState := ascii '4' '0' '0' '0' '1'

/-- The state of an error that has none: five zero bytes. -/
def unset : SqlState := ⟨Vector.replicate 5 0⟩

/-- The class `08`: the connection itself failed. Spec §10.2, `is_connection_error`. -/
def isConnectionClass (s : SqlState) : Bool :=
  s.bytes[0] == '0'.val.toUInt8 && s.bytes[1] == '8'.val.toUInt8

/-- The state as text, with replacement characters where the bytes are not UTF-8. Spec §10.2,
`sqlstate_str`. -/
def text (s : SqlState) : String := String.ofList (Utf8.decode s.bytes.toList)

end SqlState

/-- Why an operation does not fit the state of its object. Spec §7, `IllegalState`. -/
inductive StateFault where
  /-- The statement is closed. -/
  | statementClosed
  /-- The result is closed. -/
  | resultClosed
  /-- The result has no rows to read. -/
  | noRows
  /-- The cursor is on no row. -/
  | noCurrentRow
  /-- A fault reported from outside, in its own words. -/
  | reported (message : String)
  deriving DecidableEq

/-- The wording of a state fault. -/
def StateFault.message : StateFault → String
  | statementClosed => "No operations allowed after statement closed"
  | resultClosed => "Operation not allowed after ResultSet closed"
  | noRows => "Result carries no rows"
  | noCurrentRow => "Before start of result set"
  | reported message => message

/-- Why an argument is refused. Spec §7, `InvalidArgument`. -/
inductive ArgumentFault where
  /-- The SQL text is blank. -/
  | blankSql
  /-- A brace that opens an escape clause is never closed. -/
  | unterminatedEscape
  /-- A max field size below zero. -/
  | maxFieldSize
  /-- A row limit outside its range. -/
  | maxRows (requested limit : Int32)
  /-- A fetch size below zero or above the row limit. -/
  | fetchSize
  /-- A query timeout below zero. -/
  | queryTimeout
  /-- A number that is no code of an option. -/
  | unknownCode (option : String) (code : Int32)
  /-- A property or variable whose value is no integer. -/
  | notAnIntegerFor (key value : String)
  /-- A property or variable whose value is no truth value. -/
  | notABooleanFor (key value : String)
  /-- A configuration text that does not describe a configuration, and why. -/
  | config (detail : String)
  /-- No column has the name. -/
  | columnNotFound (name : String)
  /-- The row has no such column. -/
  | columnIndex (column width : Nat)
  /-- A cell whose text is no integer. -/
  | notAnInteger (value : String)
  /-- A fault reported from outside, in its own words. -/
  | reported (message : String)
  deriving DecidableEq

/-- The wording of an argument fault. -/
def ArgumentFault.message : ArgumentFault → String
  | blankSql => "SQL statement cannot be empty"
  | unterminatedEscape => "Unterminated escape sequence in SQL"
  | maxFieldSize => "Illegal value for setMaxFieldSize()"
  | maxRows requested limit =>
    "setMaxRows() out of range. " ++ Decimal.text requested.toInt ++ " > "
      ++ Decimal.text limit.toInt ++ "."
  | fetchSize => "Illegal value for setFetchSize()"
  | queryTimeout => "Illegal value for setQueryTimeout()"
  | unknownCode option code => "Illegal value for " ++ option ++ ": " ++ Decimal.text code.toInt
  | notAnIntegerFor key value => "Invalid integer for " ++ key ++ ": '" ++ value ++ "'"
  | notABooleanFor key value => "Invalid boolean for " ++ key ++ ": '" ++ value ++ "'"
  | config detail => "Invalid statement config: " ++ detail
  | columnNotFound name => "Column '" ++ name ++ "' not found."
  | columnIndex column width =>
    "Column Index out of range ( " ++ Decimal.text column ++ " > " ++ Decimal.text width ++ ")."
  | notAnInteger value => "Value '" ++ value ++ "' is not an integer"
  | reported message => message

/-- What went wrong inside. Spec §10.2, `InternalError`. -/
inductive InternalFault where
  /-- The mutex of the connection is poisoned. -/
  | lockFailed
  /-- A configuration that has no text, and why. -/
  | serialization (detail : String)
  /-- A fault reported from outside, in its own words. -/
  | reported (message : String)
  deriving DecidableEq

/-- The wording of an internal fault. -/
def InternalFault.message : InternalFault → String
  | lockFailed => "Failed to lock connection mutex"
  | serialization detail => "Config serialization: " ++ detail
  | reported message => message

/-- The failures of statements, results and connections. Spec §10.2, `StatementError`. -/
inductive SqlError where
  /-- An error reported by the server. -/
  | structured (state : SqlState) (native : Int32) (message : String)
  /-- The connection is closed or gone. -/
  | connectionClosed
  /-- The operation does not fit the state of its object. -/
  | illegalState (fault : StateFault)
  /-- An argument is refused. -/
  | invalidArgument (fault : ArgumentFault)
  /-- A modification over a read-only connection. -/
  | readOnlyViolation
  /-- A max field size above the packet budget of the connection. -/
  | limitExceeded (requested : Int32) (maxAllowed : Nat)
  /-- A query that returned no rows. -/
  | notAQuery
  /-- An update that returned rows. -/
  | expectedUpdateGotRows
  /-- A batch with failed entries: the last error and every outcome. -/
  | batchFailure (message : String) (state : SqlState) (native : Int32) (counts : List Int32)
  /-- A failure that is nobody's argument. -/
  | internal (fault : InternalFault)
  deriving DecidableEq

/-- What a caller can do about an error. Spec §10.2, `ErrorCategory`. -/
inductive Category where
  /-- Trying again may help. -/
  | transient
  /-- The operation has to be given up. -/
  | fatal
  /-- The call itself was wrong. -/
  | validation
  /-- A new connection is needed. -/
  | connectionLost
  deriving DecidableEq

namespace SqlError

/-- The refusal of every operation on a closed statement. Spec §10.2, `closed_statement`. -/
def onClosedStatement : SqlError := .illegalState .statementClosed

/-- The error as it is shown in a log. -/
def display : SqlError → String
  | structured _ _ message => "Structured error: " ++ message
  | connectionClosed => "Connection is closed."
  | illegalState fault => fault.message
  | invalidArgument fault => fault.message
  | readOnlyViolation =>
    "Connection is read-only. Queries leading to data modification are not allowed"
  | limitExceeded _ maxAllowed =>
    "Can not set max field size > max allowed packet: " ++ Decimal.text maxAllowed
  | notAQuery => "Can not issue INSERT/UPDATE/DELETE with executeQuery()"
  | expectedUpdateGotRows => "Results returned for UPDATE ONLY."
  | batchFailure message _ _ _ => "Batch failed: " ++ message
  | internal fault => "Internal error: " ++ fault.message

/-- The message alone: for server errors and failed batches the text that they carry. Spec §10.2,
`message`. -/
def message : SqlError → String
  | structured _ _ message => message
  | batchFailure message _ _ _ => message
  | e => e.display

/-- The SQLSTATE of the error. Spec §10.2, `sqlstate`. -/
def state : SqlError → SqlState
  | structured state _ _ => state
  | batchFailure _ state _ _ => state
  | connectionClosed => .connectionClosed
  | illegalState _ => .generalError
  | invalidArgument _ => .illegalArgument
  | readOnlyViolation => .illegalArgument
  | limitExceeded _ _ => .illegalArgument
  | notAQuery => .illegalArgument
  | expectedUpdateGotRows => .updateReturnedRows
  | internal _ => .unset

/-- The code that the server gave, zero for all other errors. Spec §10.2, `native_code`. -/
def native : SqlError → Int32
  | structured _ native _ => native
  | batchFailure _ _ native _ => native
  | _ => 0

/-- The outcome of every entry of a failed batch. Spec §10.2, `update_counts`. -/
def counts? : SqlError → Option (List Int32)
  | batchFailure _ _ _ counts => some counts
  | _ => none

/-- A second attempt may succeed: a server error of class `08` or a serialization failure, or
an internal error that mentions a timeout. Spec §10.2, `is_retryable`. -/
def retryable : SqlError → Bool
  | structured state _ _ => state.isConnectionClass || state == .serializationFailure
  | internal fault =>
    Text.containsText "timeout" fault.message || Text.containsText "Timeout" fault.message
  | _ => false

/-- The connection was lost: it is closed, or the server reported the class `08`. Spec §10.2,
`is_connection_error`. -/
def lostConnection : SqlError → Bool
  | connectionClosed => true
  | structured state _ _ => state.isConnectionClass
  | _ => false

/-- The call itself was wrong, whatever the connection. -/
def isValidation : SqlError → Bool
  | invalidArgument _ => true
  | readOnlyViolation => true
  | limitExceeded _ _ => true
  | notAQuery => true
  | expectedUpdateGotRows => true
  | _ => false

/-- The category, a lost connection before a retry. Spec §10.2, `error_category`. -/
def category (e : SqlError) : Category :=
  if e.isValidation then .validation
  else if e.lostConnection then .connectionLost
  else if e.retryable then .transient
  else .fatal

end SqlError

/-- Values and errors can be compared. -/
instance decidableEqExcept {ε α : Type} [DecidableEq ε] [DecidableEq α] :
    DecidableEq (Except ε α)
  | .ok a, .ok b => if h : a = b then .isTrue (h ▸ rfl) else .isFalse fun e ↦ h (Except.ok.inj e)
  | .error a, .error b =>
    if h : a = b then .isTrue (h ▸ rfl) else .isFalse fun e ↦ h (Except.error.inj e)
  | .ok _, .error _ => .isFalse nofun
  | .error _, .ok _ => .isFalse nofun

end SqlSession
