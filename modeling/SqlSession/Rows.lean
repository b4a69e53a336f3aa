import SqlSession.Text.Ascii
import SqlSession.Text.Utf8

/-!
# Rows of a result

Columns with their types and fully read rows. A cell is a text in bytes or absent; rows need
not have as many cells as there are columns.

Specification: §10.7.
-/

namespace SqlSession

/-- The type of a column, which tells a reader how to take the text of its cells. Spec §10.7,
`SqlType`. -/
inductive SqlType where
  | varchar
  | integer
  | bigInt
  | decimal
  | date
  | timestamp
  | binary
  deriving DecidableEq

namespace SqlType

/-- The type of a standard type code; unknown codes are text. Spec §10.7, `from_sql_type_code`. -/
def ofCode (n : Int) : SqlType :=
  if n = 4 ∨ n = 5 ∨ n = -6 ∨ n = -7 then integer
  else if n = -5 then bigInt
  else if n = 2 ∨ n = 3 then decimal
  else if n = 9 ∨ n = 91 then date
  else if n = 11 ∨ n = 93 then timestamp
  else if n = -2 ∨ n = -3 ∨ n = -4 then binary
  else varchar

/-- The position of the type in the list of types, from one. -/
def number : SqlType → Nat
  | varchar => 1
  | integer => 2
  | bigInt => 3
  | decimal => 4
  | date => 5
  | timestamp => 6
  | binary => 7

/-- The type holds numbers. Spec §10.7, `is_numeric`. -/
def numeric : SqlType → Bool
  | integer => true
  | bigInt => true
  | decimal => true
  | _ => false

end SqlType

/-- A column of a result. Spec §10.7, `ColumnMetadata`. -/
structure Column where
  name : String
  type : SqlType
  deriving DecidableEq

/-- The text of a cell in bytes, or nothing for an absent value. -/
abbrev Cell : Type := Option (List UInt8)

/-- All rows of one result. Spec §10.7, `RowBuffer`. -/
structure RowTable where
  columns : List Column
  rows : List (List Cell)
  deriving DecidableEq

namespace RowTable

/-- The position, from zero, of the first column with the name, whatever the case of its ASCII
letters. Spec §10.7, `column_index`. -/
def columnNamed? (t : RowTable) (name : String) : Option Nat :=
  t.columns.findIdx? fun c ↦ Text.sameLetters c.name.toList name.toList

/-- A table of one column and one row that holds an ASCII text. -/
def single (name : String) (type : SqlType) (text : List Char) : RowTable :=
  ⟨[⟨name, type⟩], [[some (Utf8.ofAscii text)]]⟩

end RowTable

end SqlSession
