/-!
# Quoted text and braces

A scan of SQL text that knows quotes and braces. A quote opens with one of the three quote
characters and closes with the same one; inside it a backslash protects the next character.
`Scan` adds the depth of open braces outside quotes, where a closing brace at depth zero is an
ordinary character.

Specification: §10.7.
-/

namespace SqlSession.Sql

/-- The backquote, which quotes identifiers. -/
def backquote : Char := Char.ofNat 0x60

/-- The characters that open a quote. -/
def isQuote (c : Char) : Bool := c == '\'' || c == '"' || c == backquote

/-- Where a scan stands with respect to quotes. -/
inductive Quoting where
  /-- Outside every quote. -/
  | outside
  /-- Inside a quote that the character closes. -/
  | inside (quote : Char)
  /-- Inside a quote, right behind a backslash. -/
  | shielded (quote : Char)
  deriving DecidableEq

/-- One character further. -/
def Quoting.next : Quoting → Char → Quoting
  | outside, c => if isQuote c then inside c else outside
  | inside q, c => if c = '\\' then shielded q else if c = q then outside else inside q
  | shielded q, _ => inside q

/-- The state of a scan: quoting, and the number of unquoted braces still open. -/
structure Scan where
  quoting : Quoting := .outside
  depth : Nat := 0
  deriving DecidableEq

/-- One character further. -/
def Scan.next (s : Scan) (c : Char) : Scan :=
  match s.quoting with
  | .outside =>
    if c = '\x7b' then { s with depth := s.depth + 1 }
    else if c = '\x7d' then { s with depth := s.depth - 1 }
    else { s with quoting := Quoting.outside.next c }
  | q => { s with quoting := q.next c }

/-- The state after a whole text. -/
def Scan.run (s : Scan) (text : List Char) : Scan := text.foldl Scan.next s

theorem Scan.run_append (s : Scan) (a b : List Char) : s.run (a ++ b) = (s.run a).run b :=
  List.foldl_append

end SqlSession.Sql
