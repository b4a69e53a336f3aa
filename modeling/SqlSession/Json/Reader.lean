import SqlSession.Json.Basic
import SqlSession.Text.Decimal

/-!
# Reading JSON

The grammar of RFC 8259 over a list of characters: no comments, no trailing commas, no leading
zeros, control characters only as escapes. `Json.read?` takes one value with blanks around it
and nothing else.
-/

namespace SqlSession.Json

/-- The blank characters of JSON. -/
def isSpace (c : Char) : Bool := c == ' ' || c == '\t' || c == '\n' || c == '\r'

/-- The text without its leading blanks. -/
def skipSpace (s : List Char) : List Char := s.dropWhile isSpace

/-- A piece of a text: a character, or a surrogate written as an escape. -/
inductive Piece where
  | char (c : Char)
  | surrogate (unit : Nat)
  deriving DecidableEq

/-- The character of a one-letter escape. -/
def escape? : Char → Option Char
  | '"' => some '"'
  | '\\' => some '\\'
  | '/' => some '/'
  | 'b' => some '\x08'
  | 'f' => some '\x0c'
  | 'n' => some '\n'
  | 'r' => some '\r'
  | 't' => some '\t'
  | _ => none

/-- The value of a hexadecimal digit. -/
def hexDigit? (c : Char) : Option Nat :=
  if c.isDigit then some (c.toNat - 48)
  else if 'a' ≤ c ∧ c ≤ 'f' then some (c.toNat - 87)
  else if 'A' ≤ c ∧ c ≤ 'F' then some (c.toNat - 55)
  else none

/-- The piece of four hexadecimal digits. -/
def hexPiece? (a b c d : Char) : Option Piece :=
  match hexDigit? a, hexDigit? b, hexDigit? c, hexDigit? d with
  | some a, some b, some c, some d =>
    let n := ((a * 16 + b) * 16 + c) * 16 + d
    some (if 0xD800 ≤ n ∧ n ≤ 0xDFFF then .surrogate n else .char (Char.ofNat n))
  | _, _, _, _ => none

/-- The pieces of a text behind its opening quote, and what follows its closing quote. -/
def readPieces : List Char → Option (List Piece × List Char)
  | [] => none
  | '"' :: r => some ([], r)
  | '\\' :: 'u' :: a :: b :: c :: d :: r =>
    match hexPiece? a b c d with
    | some p => (readPieces r).map fun t ↦ (p :: t.1, t.2)
    | none => none
  | '\\' :: e :: r =>
    match escape? e with
    | some c => (readPieces r).map fun t ↦ (.char c :: t.1, t.2)
    | none => none
  | c :: r =>
    if c.toNat < 32 ∨ c = '\\' then none
    else (readPieces r).map fun t ↦ (.char c :: t.1, t.2)

/-- The characters of the pieces, a surrogate pair as one character. -/
def joinPieces : List Piece → Option (List Char)
  | [] => some []
  | .char c :: r => (joinPieces r).map (c :: ·)
  | .surrogate h :: .surrogate l :: r =>
    if h < 0xDC00 ∧ 0xDC00 ≤ l then
      (joinPieces r).map (Char.ofNat (0x10000 + (h - 0xD800) * 1024 + (l - 0xDC00)) :: ·)
    else none
  | .surrogate _ :: _ => none

/-- A text behind its opening quote. -/
def readText (s : List Char) : Option (Option (List Char) × List Char) :=
  (readPieces s).map fun t ↦ (joinPieces t.1, t.2)

/-- One or more digits, and what follows them. -/
def readDigits (s : List Char) : Option (List Char × List Char) :=
  let ds := s.takeWhile Char.isDigit
  if ds = [] then none else some (ds, s.dropWhile Char.isDigit)

/-- What follows a fraction, and whether there is one. -/
def readFraction : List Char → Option (Bool × List Char)
  | '.' :: r => (readDigits r).map fun p ↦ (true, p.2)
  | s => some (false, s)

/-- The text behind a sign. -/
def skipSign : List Char → List Char
  | '+' :: r => r
  | '-' :: r => r
  | s => s

/-- What follows an exponent, and whether there is one. -/
def readExponent : List Char → Option (Bool × List Char)
  | 'e' :: r => (readDigits (skipSign r)).map fun p ↦ (true, p.2)
  | 'E' :: r => (readDigits (skipSign r)).map fun p ↦ (true, p.2)
  | s => some (false, s)

/-- A number without its sign. -/
def readMagnitude (negative : Bool) (s : List Char) : Option (Json × List Char) := do
  let (ds, r) ← readDigits s
  if ds.head? = some '0' ∧ ds ≠ ['0'] then none
  else
    let whole ← Decimal.magnitude? ds
    let (fraction, r) ← readFraction r
    let (exponent, r) ← readExponent r
    pure (.number negative whole (!fraction && !exponent), r)

/-- A number. -/
def readNumber : List Char → Option (Json × List Char)
  | '-' :: r => readMagnitude true r
  | s => readMagnitude false s

/-- A value that is neither text nor array nor object. -/
def readScalar : List Char → Option (Json × List Char)
  | 'n' :: 'u' :: 'l' :: 'l' :: r => some (.null, r)
  | 't' :: 'r' :: 'u' :: 'e' :: r => some (.bool true, r)
  | 'f' :: 'a' :: 'l' :: 's' :: 'e' :: r => some (.bool false, r)
  | s => readNumber s

mutual

/-- A value, with blanks before it. The fuel bounds the number of steps. -/
def readValue : Nat → List Char → Option (Json × List Char)
  | 0, _ => none
  | n + 1, s =>
    match skipSpace s with
    | '"' :: r => (readText r).map fun t ↦ (.text t.1, t.2)
    | '[' :: r =>
      match skipSpace r with
      | ']' :: r' => some (.array [], r')
      | r' => (readElements n r').map fun p ↦ (.array p.1, p.2)
    | '\x7b' :: r =>
      match skipSpace r with
      | '\x7d' :: r' => some (.object [], r')
      | r' => (readMembers n r').map fun p ↦ (.object p.1, p.2)
    | r => readScalar r

/-- The elements of an array up to its end, at least one. -/
def readElements : Nat → List Char → Option (List Json × List Char)
  | 0, _ => none
  | n + 1, s =>
    match readValue n s with
    | none => none
    | some (v, r) =>
      match skipSpace r with
      | ',' :: r' => (readElements n r').map fun p ↦ (v :: p.1, p.2)
      | ']' :: r' => some ([v], r')
      | _ => none

/-- The members of an object up to its end, at least one. -/
def readMembers : Nat → List Char → Option (List (Option (List Char) × Json) × List Char)
  | 0, _ => none
  | n + 1, s =>
    match skipSpace s with
    | '"' :: r =>
      match readText r with
      | none => none
      | some (name, r) =>
        match skipSpace r with
        | ':' :: r =>
          match readValue n r with
          | none => none
          | some (v, r) =>
            match skipSpace r with
            | ',' :: r' => (readMembers n r').map fun p ↦ ((name, v) :: p.1, p.2)
            | '\x7d' :: r' => some ([(name, v)], r')
            | _ => none
        | _ => none
    | _ => none

end

/-- The value of a whole text. Every step takes a character or enters a value, so twice the
length of the text bounds the steps. -/
def read? (s : List Char) : Option Json :=
  match readValue (2 * s.length + 2) s with
  | some (v, r) => if skipSpace r = [] then some v else none
  | none => none

end SqlSession.Json
