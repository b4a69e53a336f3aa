import SqlSession.Packet.Basic
import SqlSession.Text.Blank

/-!
# Reading a response

The cursor of a response starts before the first row, moves one row at a time, and stays
behind the last one. Cells are read from its row by a column number that counts from one.

Specification: §10.7.
-/

namespace SqlSession.Response

/-- A closed response refuses to be read. Spec §10.7, `check_open`. -/
def ensureOpen (r : Response) : Except SqlError Unit :=
  if r.closed then .error (.illegalState .resultClosed) else .ok ()

/-- The number, from one, of the first column with the name. Spec §10.7, `find_column`. -/
def columnNumber (r : Response) (name : String) : Except SqlError Nat :=
  match r.rows.bind fun t ↦ t.columnNamed? name with
  | some i => .ok (i + 1)
  | none => .error (.invalidArgument (.columnNotFound name))

/-- The row that the next move of the cursor would reach. -/
def nextRow (r : Response) : Nat :=
  match r.cursor with
  | some i => i + 1
  | none => 0

/-- The response with its cursor one row further, and whether there is such a row. Spec §10.7,
`next`. -/
def advance (r : Response) : Except SqlError (Bool × Response) :=
  r.ensureOpen.map fun _ ↦
    (decide (r.nextRow < r.rowCount), { r with cursor := some (min r.nextRow r.rowCount) })

/-- The row that the cursor is on. -/
def currentRow? (r : Response) (t : RowTable) : Option (List Cell) :=
  r.cursor.bind fun i ↦ t.rows[i]?

/-- The bytes of a cell in the current row. Spec §10.7, `get_bytes`. -/
def cell (r : Response) (column : Nat) : Except SqlError Cell := do
  r.ensureOpen
  match r.rows with
  | none => throw (.illegalState .noRows)
  | some t =>
    match r.currentRow? t with
    | none => throw (.illegalState .noCurrentRow)
    | some row =>
      match column with
      | 0 => throw (.invalidArgument (.columnIndex 0 row.length))
      | i + 1 =>
        match row[i]? with
        | some c => pure c
        | none => throw (.invalidArgument (.columnIndex (i + 1) row.length))

/-- The text of a cell in the current row. Spec §10.7, `get_string`. -/
def cellText (r : Response) (column : Nat) : Except SqlError (Option (List Char)) :=
  (r.cell column).map fun c ↦ c.map Utf8.decode

/-- The integer of a cell in the current row, whatever blanks stand around it. Spec §10.7,
`get_i64`. -/
def cellInt (r : Response) (column : Nat) : Except SqlError (Option Int64) := do
  match ← r.cellText column with
  | none => pure none
  | some text =>
    match Decimal.readInt64? (Text.trim text) with
    | some n => pure (some n)
    | none => throw (.invalidArgument (.notAnInteger (String.ofList text)))

/-- The truth value as it is shown in a description. -/
def shownBool (b : Bool) : String := if b then "true" else "false"

/-- The statement number as it is shown in a description. -/
def shownStatement : Option Nat → String
  | some n => "Some(" ++ Decimal.text n ++ ")"
  | none => "None"

end SqlSession.Response

namespace SqlSession.Packet

/-- A one-line description of a packet for a developer. -/
def debugText (p : Packet) : String :=
  let r := p.head
  "ResultSet \x7b really_result: " ++ Response.shownBool r.hasRows
    ++ ", rows: " ++ Decimal.text r.rowCount
    ++ ", update_count: " ++ Decimal.text r.updateCount.toInt
    ++ ", generated_key: " ++ Decimal.text r.generatedKey.toInt
    ++ ", has_next: " ++ Response.shownBool (!p.followOns.isEmpty)
    ++ ", statement_id: " ++ Response.shownStatement r.binding.statement
    ++ ", closed: " ++ Response.shownBool r.closed ++ " \x7d"

end SqlSession.Packet
