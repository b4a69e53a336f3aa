import SqlSession.Config.Codec
import SqlSession.Json.Reader

/-!
# Configurations as JSON

A configuration is written as an object with all its fields in a fixed order. It is read from
an object in which fields may be missing, stand in any order and have company, but not be
repeated, or from an array of the fields in their order from which the last ones may be
missing. The value of an option is its word, or an object with that word and nothing in it.

Specification: §10.5.
-/

namespace SqlSession.Config

/-- The names of the fields in their order. -/
def fieldNames : List String :=
  ["max_field_size", "max_rows", "fetch_size", "query_timeout_secs", "escape_processing",
    "result_set_type", "result_set_concurrency"]

/-- A 32-bit integer. -/
def readInt32? (v : Json) : Option Int32 := v.int?.bind Decimal.toInt32?

/-- A 32-bit integer or its absence. -/
def readMaybeInt32? : Json → Option (Option Int32)
  | .null => some none
  | v => (readInt32? v).map some

/-- The word of an option, alone or as the only member of an object. -/
def readWord? : Json → Option (List Char)
  | .text word => word
  | .object [(word, .null)] => word
  | _ => none

/-- The field of a name: the default if it is missing, nothing if it is repeated or its value
does not fit. -/
def field? {α : Type} (members : List (List Char × Json)) (name : String) (default : α)
    (read : Json → Option α) : Option α :=
  match members.filter fun m ↦ m.1 == name.toList with
  | [] => some default
  | [m] => read m.2
  | _ => none

/-- The configuration of named values. -/
def ofMembers? (members : List (List Char × Json)) : Option Config := do
  let d : Config := {}
  let maxFieldSize ← field? members "max_field_size" d.maxFieldSize readMaybeInt32?
  let maxRows ← field? members "max_rows" d.maxRows readInt32?
  let fetchSize ← field? members "fetch_size" d.fetchSize readInt32?
  let queryTimeout ← field? members "query_timeout_secs" d.queryTimeout readInt32?
  let escapeProcessing ← field? members "escape_processing" d.escapeProcessing Json.bool?
  let resultSetType ← field? members "result_set_type" d.resultSetType
    fun v ↦ (readWord? v).bind Worded.ofWord?
  let concurrency ← field? members "result_set_concurrency" d.concurrency
    fun v ↦ (readWord? v).bind Worded.ofWord?
  pure ⟨maxFieldSize, maxRows, fetchSize, queryTimeout, escapeProcessing, resultSetType,
    concurrency⟩

/-- The members whose names are texts, nothing if one is not. -/
def namedMembers? : List (Option (List Char) × Json) → Option (List (List Char × Json))
  | [] => some []
  | (some name, v) :: r => (namedMembers? r).map ((name, v) :: ·)
  | (none, _) :: _ => none

/-- The configuration of a JSON value. -/
def ofJson? : Json → Option Config
  | .object members => (namedMembers? members).bind ofMembers?
  | .array elements =>
    if elements.length ≤ fieldNames.length then
      ofMembers? ((fieldNames.map String.toList).zip elements)
    else none
  | _ => none

/-- The text of an object whose members have the given names and texts of values. -/
def objectText (members : List (String × List Char)) : String :=
  let member (m : String × List Char) := '"' :: m.1.toList ++ ['"', ':'] ++ m.2
  String.ofList ('\x7b' :: List.intercalate [','] (members.map member) ++ ['\x7d'])

/-- A word as a JSON text. -/
def quotedWord (word : String) : List Char := '"' :: word.toList ++ ['"']

/-- The configuration as a JSON text. -/
def render (c : Config) : String :=
  objectText
    [("max_field_size",
        match c.maxFieldSize with
          | some n => Decimal.render n.toInt
          | none => "null".toList),
      ("max_rows", Decimal.render c.maxRows.toInt),
      ("fetch_size", Decimal.render c.fetchSize.toInt),
      ("query_timeout_secs", Decimal.render c.queryTimeout.toInt),
      ("escape_processing", if c.escapeProcessing then "true".toList else "false".toList),
      ("result_set_type", quotedWord (Worded.word c.resultSetType)),
      ("result_set_concurrency", quotedWord (Worded.word c.concurrency))]

/-- The codec of JSON texts. -/
def Codec.standard : Codec where
  write c := .ok c.render
  read text :=
    match (Json.read? text.toList).bind ofJson? with
    | some c => .ok c
    | none => .error "not a configuration"

/-- The configuration of a JSON text. -/
def parse (text : String) : Except SqlError Config := fromJson .standard text

end SqlSession.Config
