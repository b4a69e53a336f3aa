import SqlSession.Config.Basic
import SqlSession.Text.Blank

/-!
# Configuration from properties and variables

A property string holds assignments between semicolons; a semicolon inside braces separates
nothing. Names of properties are taken without regard to case and underscores, values without
the braces around them. Environment variables set four of the fields, and properties go over
them.

Specification: §10.5.
-/

namespace SqlSession

/-- The greatest brace depth that is counted. -/
def Property.deepest : Nat := UInt32.size - 1

/-- The brace depth behind a character: an opening brace adds a level as far as levels are counted,
and a closing one takes one away if there is one. -/
def Property.depthAfter (depth : Nat) (c : Char) : Nat :=
  if c = '\x7b' then min (depth + 1) deepest else if c = '\x7d' then depth - 1 else depth

/-- The parts of a property string, the first one starting at the given brace depth. -/
def Property.partsFrom (depth : Nat) : List Char → List (List Char)
  | [] => [[]]
  | c :: r =>
    if c = ';' ∧ depth = 0 then [] :: partsFrom 0 r
    else
      match partsFrom (depthAfter depth c) r with
      | [] => [[c]]
      | p :: ps => (c :: p) :: ps

/-- The parts of a property string that are not blank. Spec §10.5, `split_property_parts`. -/
def Property.parts (s : List Char) : List (List Char) :=
  (Property.partsFrom 0 s).filter fun p ↦ !Text.allBlank p

/-- An assignment: the name of a property as it is compared, and its value. -/
structure Property where
  key : List Char
  value : List Char
  deriving DecidableEq

namespace Property

/-- The name of a property without blanks around it, underscores and capitals. Spec §10.5,
`normalize_key`. -/
def comparedKey (s : List Char) : List Char :=
  Text.lower ((Text.trim s).filter fun c ↦ c ≠ '_')

/-- The characters that are taken off both ends of a value. -/
def isBrace (c : Char) : Bool := c == '\x7b' || c == '\x7d'

/-- The text without the braces at either end. -/
def trimBraces (s : List Char) : List Char :=
  ((s.dropWhile isBrace).reverse.dropWhile isBrace).reverse

/-- The assignment of a part at its first equals sign; a part without one is none. -/
def ofPart? (part : List Char) : Option Property :=
  match part.dropWhile fun c ↦ c ≠ '=' with
  | [] => none
  | _ :: value =>
    some ⟨comparedKey (part.takeWhile fun c ↦ c ≠ '='), trimBraces (Text.trim value)⟩

/-- The fields that a property can set. -/
inductive Field where
  | maxRows
  | fetchSize
  | maxFieldSize
  | queryTimeout
  | escapeProcessing
  | resultSetType
  | concurrency
  deriving DecidableEq

/-- The field of a property name. -/
def Field.ofKey? (key : List Char) : Option Field :=
  if key = "maxrows".toList then some .maxRows
  else if key = "fetchsize".toList then some .fetchSize
  else if key = "maxfieldsize".toList then some .maxFieldSize
  else if key = "querytimeout".toList ∨ key = "querytimeoutsecs".toList then some .queryTimeout
  else if key = "escapeprocessing".toList then some .escapeProcessing
  else if key = "resultsettype".toList then some .resultSetType
  else if key = "resultsetconcurrency".toList then some .concurrency
  else none

end Property

namespace Config

/-- The integer of a value, whatever blanks stand around it. Spec §10.5, `parse_int`. -/
def readInt (key : String) (value : List Char) : Except SqlError Int32 :=
  match Decimal.readInt32? (Text.trim value) with
  | some n => .ok n
  | none => .error (.invalidArgument (.notAnIntegerFor key (String.ofList value)))

/-- The words for true. -/
def trueWords : List (List Char) := ["1".toList, "true".toList, "yes".toList, "on".toList]

/-- The words for false. -/
def falseWords : List (List Char) := ["0".toList, "false".toList, "no".toList, "off".toList]

/-- The truth value of a value, whatever its case and the blanks around it. Spec §10.5,
`parse_bool`. -/
def readBool (key : String) (value : List Char) : Except SqlError Bool :=
  let word := Text.lower (Text.trim value)
  if word ∈ trueWords then .ok true
  else if word ∈ falseWords then .ok false
  else .error (.invalidArgument (.notABooleanFor key (String.ofList value)))

/-- The value of an option as a word: without blanks and capitals, with underscores for
hyphens. -/
def optionWord (value : List Char) : List Char :=
  (Text.lower (Text.trim value)).map fun c ↦ if c = '-' then '_' else c

/-- An option by its word or its code. Spec §10.5, `parse_result_set_type` and
`parse_concurrency`. -/
def readOption {α : Type} [Coded α] [Worded α] (value : List Char) : Except SqlError α :=
  match Worded.ofWord? (optionWord value) with
  | some a => .ok a
  | none => (readInt (Worded.property α) (optionWord value)).bind Coded.ofCode

/-- The configuration with one field taken from a property. Spec §10.5, `apply_properties`. -/
def assign (c : Config) (p : Property) : Property.Field → Except SqlError Config
  | .maxRows => (readInt (String.ofList p.key) p.value).map fun n ↦ { c with maxRows := n }
  | .fetchSize => (readInt (String.ofList p.key) p.value).map fun n ↦ { c with fetchSize := n }
  | .maxFieldSize =>
    (readInt (String.ofList p.key) p.value).map fun n ↦ { c with maxFieldSize := some n }
  | .queryTimeout =>
    (readInt (String.ofList p.key) p.value).map fun n ↦ { c with queryTimeout := n }
  | .escapeProcessing =>
    (readBool (String.ofList p.key) p.value).map fun b ↦ { c with escapeProcessing := b }
  | .resultSetType => (readOption p.value).map fun t ↦ { c with resultSetType := t }
  | .concurrency => (readOption p.value).map fun t ↦ { c with concurrency := t }

/-- What applying a property string leaves: the configuration, the unknown property names in
their order, and the error that ended it early. -/
structure Applied where
  config : Config
  ignored : List String := []
  error : Option SqlError := none

/-- The configuration with the assignments of the parts, up to the first that fails. -/
def takeParts (c : Config) : List (List Char) → Applied
  | [] => { config := c }
  | part :: r =>
    match Property.ofPart? part with
    | none => c.takeParts r
    | some p =>
      match Property.Field.ofKey? p.key with
      | none =>
        let a := c.takeParts r
        { a with ignored := String.ofList p.key :: a.ignored }
      | some f =>
        match c.assign p f with
        | .ok c' => c'.takeParts r
        | .error e => { config := c, error := some e }

/-- The configuration with the assignments of a property string. Spec §10.5, `apply_properties`. -/
def withProperties (c : Config) (properties : String) : Applied :=
  c.takeParts (Property.parts properties.toList)

/-- The value of a variable if it is set, else the value that stands. -/
def variableOr {α : Type} (env : String → Option String) (key : String) (standing : α)
    (read : String → List Char → Except SqlError α) : Except SqlError α :=
  match env key with
  | some v => read key v.toList
  | none => .ok standing

/-- The configuration with the fields that environment variables set. Spec §10.5, `apply_env`. -/
def withEnvironment (c : Config) (env : String → Option String) : Except SqlError Config := do
  let maxRows ← variableOr env "STATEMENT_MAX_ROWS" c.maxRows readInt
  let fetchSize ← variableOr env "STATEMENT_FETCH_SIZE" c.fetchSize readInt
  let queryTimeout ← variableOr env "STATEMENT_QUERY_TIMEOUT" c.queryTimeout readInt
  let escapeProcessing ← variableOr env "STATEMENT_ESCAPE_PROCESSING" c.escapeProcessing readBool
  pure { c with maxRows, fetchSize, queryTimeout, escapeProcessing }

/-- The default configuration under the environment under the properties. Spec §10.5,
`resolve_with`. -/
def resolve (properties : String) (env : String → Option String) : Except SqlError Config := do
  let c ← Config.withEnvironment {} env
  let a := c.withProperties properties
  match a.error with
  | none => pure a.config
  | some e => throw e

end Config

end SqlSession
