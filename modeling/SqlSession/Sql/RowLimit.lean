import SqlSession.Options
import SqlSession.Text.Blank

/-!
# Row limits of a dispatch

A statement is a query when its first character that is no blank is the letter S. On a session
that uses row limits a query with a limit clause of its own is sent with a cap, and everything
else behind a directive that sets or resets the limit of the session.

Specification: §4.1.
-/

namespace SqlSession.Sql

/-- The first character that is no blank. Spec §4.1, `first_non_whitespace`. -/
def firstLetter? (sql : List Char) : Option Char := sql.find? fun c ↦ !Text.isBlank c

/-- The text is taken for a query. Spec §4.1, `is_query`. -/
def startsQuery (sql : String) : Bool :=
  match firstLetter? sql.toList with
  | some c => c == 'S' || c == 's'
  | none => false

/-- The text mentions a limit, in any case and anywhere. Spec §4.1, `has_limit_clause`. -/
def mentionsLimit (sql : String) : Bool :=
  Text.contains "LIMIT".toList (Text.upper sql.toList)

/-- The directive that resets the limit of the session. Spec §4.1, `SELECT_LIMIT_DEFAULT`. -/
def defaultLimitDirective : String := "SET OPTION SQL_SELECT_LIMIT=DEFAULT"

/-- The directive that sets the limit of the session, or resets it without a positive limit.
Spec §4.1, `select_limit_directive`. -/
def directiveFor (maxRows : Int32) : String :=
  if maxRows ≤ 0 then defaultLimitDirective
  else "SET OPTION SQL_SELECT_LIMIT=" ++ Decimal.text maxRows.toInt

/-- How a dispatch is limited. Spec §4.1, `LimitPlan`. -/
inductive LimitRoute where
  /-- The session uses no limits. -/
  | plain
  /-- The text has its own limit clause and is sent with a cap. -/
  | capped (maxRows : Int32)
  /-- The directive goes first. -/
  | directed (directive : String)
  deriving DecidableEq

namespace LimitRoute

/-- The directive that goes first, if there is one. Spec §4.1, `directive`. -/
def directive? : LimitRoute → Option String
  | directed directive => some directive
  | _ => none

/-- The cap that is sent with the text. Spec §4.1, `dispatch_max_rows`. -/
def cap : LimitRoute → Int32
  | capped maxRows => maxRows
  | _ => noRowLimit

/-- The plan for a text on a session. Spec §4.1, `plan`. -/
def choose (limitsRows : Bool) (sql : String) (query : Bool) (maxRows : Int32) : LimitRoute :=
  if !limitsRows then plain
  else if !query then directed defaultLimitDirective
  else if mentionsLimit sql then capped maxRows
  else directed (directiveFor maxRows)

end LimitRoute

end SqlSession.Sql
