import SqlSession.Options

/-!
# Configuration of a statement

The initial settings of a statement, before any of them is checked.

Specification: §10.5.
-/

namespace SqlSession

/-- Settings that a statement can be given at once. Spec §10.5, `StatementConfig`. -/
structure Config where
  /-- The max field size; absent, the packet budget of the connection stays. -/
  maxFieldSize : Option Int32 := none
  /-- The row limit, zero for none. -/
  maxRows : Int32 := 0
  fetchSize : Int32 := 0
  queryTimeout : Int32 := 0
  escapeProcessing : Bool := true
  resultSetType : ResultSetType := .forwardOnly
  concurrency : Concurrency := .readOnly
  deriving DecidableEq

/-- The characters of the words for options. -/
def wordLetters : List Char := "abcdefghijklmnopqrstuvwxyz_".toList

/-- A coded option whose values have words in configurations, each its own. -/
class Worded (α : Type) [Coded α] where
  /-- The name of the option as a property. -/
  property : String
  /-- The word for a value. -/
  word : α → String
  word_injective : ∀ {a b : α}, word a = word b → a = b := by
    intro a b h
    cases a <;> cases b <;> first | rfl | exact absurd h (by decide)
  word_letters : ∀ a : α, (word a).toList.all wordLetters.contains = true := by
    intro a
    cases a <;> decide

instance : Worded ResultSetType where
  property := "resultsettype"
  word
    | .forwardOnly => "forward_only"
    | .scrollInsensitive => "scroll_insensitive"
    | .scrollSensitive => "scroll_sensitive"

instance : Worded Concurrency where
  property := "resultsetconcurrency"
  word
    | .readOnly => "read_only"
    | .updatable => "updatable"

namespace Worded

variable {α : Type} [Coded α] [Worded α]

/-- The value of a word. -/
def ofWord? (w : List Char) : Option α :=
  (Coded.values : List α).find? fun a ↦ (word a).toList == w

/-- A word is read as the value that has it. -/
theorem ofWord?_eq_some_iff {w : List Char} {a : α} : ofWord? w = some a ↔ (word a).toList = w := by
  constructor
  · intro h
    simpa using List.find?_some h
  · intro h
    unfold ofWord?
    cases hb : (Coded.values : List α).find? fun b ↦ (word b).toList == w with
    | some b =>
      have hword : (word b).toList = w := by simpa using List.find?_some hb
      rw [word_injective (String.toList_inj.1 (h.trans hword.symm))]
    | none => exact absurd h (by simpa using List.find?_eq_none.1 hb a (Coded.mem_values a))

/-- What holds of the letters of words holds of every character of a word. -/
theorem all_word {p : Char → Bool} (h : wordLetters.all p = true) (a : α) :
    (word a).toList.all p = true := by
  rw [List.all_eq_true] at h ⊢
  intro c hc
  have hletter := List.all_eq_true.1 (word_letters a) c hc
  exact h c (List.contains_iff_mem.1 hletter)

end Worded

end SqlSession
