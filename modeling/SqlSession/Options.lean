import SqlSession.Error

/-!
# Coded options

The options of a statement that callers name by a number. `Coded` lists the values of such an
option with their codes; `Coded.ofCode` reads a code back and refuses every other number with
the name of the option.

Specification: §4.2, §4.4 and §10.6.
-/

namespace SqlSession

/-- An option whose values have numeric codes, each its own. -/
class Coded (α : Type) where
  /-- The name of the option in a refusal. -/
  option : String
  /-- Every value. -/
  values : List α
  /-- The code of a value. -/
  code : α → Int32
  mem_values : ∀ a : α, a ∈ values := by
    intro a
    cases a <;> decide
  code_injective : ∀ {a b : α}, code a = code b → a = b := by
    intro a b h
    cases a <;> cases b <;> first | rfl | cases h

/-- The value with the code. Spec §10.6, `try_from`. -/
def Coded.ofCode {α : Type} [Coded α] (n : Int32) : Except SqlError α :=
  match (Coded.values : List α).find? fun a ↦ Coded.code a == n with
  | some a => .ok a
  | none => .error (.invalidArgument (.unknownCode (Coded.option α) n))

namespace Coded

variable {α : Type} [Coded α] {n : Int32}

/-- A code is read as the value that has it. -/
theorem ofCode_ok_iff {a : α} : ofCode n = .ok a ↔ code a = n := by
  constructor
  · intro h
    unfold ofCode at h
    split at h
    · next b hb =>
      rw [← Except.ok.inj h]
      simpa using List.find?_some hb
    · cases h
  · intro h
    unfold ofCode
    cases hb : (values : List α).find? fun b ↦ code b == n with
    | some b =>
      have hcode : code b = n := by simpa using List.find?_some hb
      rw [code_injective (h.trans hcode.symm)]
    | none => exact absurd h (by simpa using List.find?_eq_none.1 hb a (mem_values a))

/-- A number that is no code is refused, with the name of the option. -/
theorem ofCode_error_iff {e : SqlError} : (ofCode n : Except SqlError α) = .error e ↔
    (∀ a : α, code a ≠ n) ∧ e = .invalidArgument (.unknownCode (Coded.option α) n) := by
  constructor
  · intro h
    refine ⟨fun a ha ↦ ?_, ?_⟩
    · rw [ofCode_ok_iff.2 ha] at h
      cases h
    · unfold ofCode at h
      split at h
      · cases h
      · exact (Except.error.inj h).symm
  · rintro ⟨hnone, rfl⟩
    cases h : (ofCode n : Except SqlError α) with
    | ok a => exact absurd (ofCode_ok_iff.1 h) (hnone a)
    | error e =>
      unfold ofCode at h
      split at h
      · cases h
      · rw [← Except.error.inj h]

end Coded

/-- How a cursor moves over a result. Spec §10.6, `ResultSetType`. -/
inductive ResultSetType where
  | forwardOnly
  | scrollInsensitive
  | scrollSensitive
  deriving DecidableEq

instance : Coded ResultSetType where
  option := "result set type"
  values := [.forwardOnly, .scrollInsensitive, .scrollSensitive]
  code
    | .forwardOnly => 1003
    | .scrollInsensitive => 1004
    | .scrollSensitive => 1005

/-- Whether the rows of a result can be changed. Spec §10.6, `ResultSetConcurrency`. -/
inductive Concurrency where
  | readOnly
  | updatable
  deriving DecidableEq

instance : Coded Concurrency where
  option := "result set concurrency"
  values := [.readOnly, .updatable]
  code
    | .readOnly => 1007
    | .updatable => 1008

/-- The direction in which rows are meant to be read. Spec §10.6, `FetchDirection`. -/
inductive FetchDirection where
  | forward
  | reverse
  | unknown
  deriving DecidableEq

instance : Coded FetchDirection where
  option := "setFetchDirection()"
  values := [.forward, .reverse, .unknown]
  code
    | .forward => 1000
    | .reverse => 1001
    | .unknown => 1002

/-- What happens to the current result when the next one takes its place. Spec §4.2,
`MoreResults`. -/
inductive MoreResults where
  /-- It is closed. -/
  | closeCurrent
  /-- It is kept open. -/
  | keepCurrent
  /-- It is closed, and so is every result kept before. -/
  | closeAll
  deriving DecidableEq

instance : Coded MoreResults where
  option := "getMoreResults(int)"
  values := [.closeCurrent, .keepCurrent, .closeAll]
  code
    | .closeCurrent => 1
    | .keepCurrent => 2
    | .closeAll => 3

/-- The mode closes the current result. Spec §4.2, `closes_current`. -/
def MoreResults.closes : MoreResults → Bool
  | closeCurrent => true
  | keepCurrent => false
  | closeAll => true

/-- What a commit does to open results. Spec §10.6, `Holdability`. -/
inductive Holdability where
  | holdCursorsOverCommit
  | closeCursorsAtCommit
  deriving DecidableEq

instance : Coded Holdability where
  option := "result set holdability"
  values := [.holdCursorsOverCommit, .closeCursorsAtCommit]
  code
    | .holdCursorsOverCommit => 1
    | .closeCursorsAtCommit => 2

/-- Which kind of execution a caller asked for. Spec §10.4, `StatementKind`. -/
inductive StatementKind where
  | execute
  | query
  | update
  deriving DecidableEq

/-- The word for the kind in a log line. Spec §10.4, `as_str`. -/
def StatementKind.word : StatementKind → String
  | execute => "execute"
  | query => "query"
  | update => "update"

/-- The greatest row limit. Spec §4.4, `MAX_ROWS`. -/
def greatestRowLimit : Int32 := 50000000

/-- The stored row limit of a statement without one, and the cap of a dispatch without one. Spec §3,
`UNLIMITED_ROWS`. -/
def noRowLimit : Int32 := -1

/-- The fetch size that asks for rows one by one. Spec §4.4, `STREAMING_FETCH_SIZE`. -/
def streamRows : Int32 := Int32.minValue

/-- The outcome of a batch entry that failed. Spec §4.3, `EXECUTE_FAILED`. -/
def failedEntry : Int32 := -3

/-- The generated key before any statement produced one. Spec §3, `UNKNOWN_INSERT_ID`. -/
def noKey : Int64 := -1

/-- The packet budget of a connection that does not say otherwise. Spec §6, `DEFAULT_MAX_PACKET`. -/
def defaultPacketBudget : Nat := 65535

end SqlSession
