/-!
# JSON values

A value as its text says it: members keep their order and may repeat a name, a number keeps
what tells an integer from other numbers, and a text whose escapes leave half of a surrogate
pair is no text.
-/

namespace SqlSession

/-- A JSON value. -/
inductive Json where
  | null
  | bool (value : Bool)
  /-- A number by its sign and whole part; it is plain without fraction and exponent. -/
  | number (negative : Bool) (whole : Nat) (plain : Bool)
  /-- A text, or nothing where a surrogate stands without its partner. -/
  | text (value : Option (List Char))
  | array (elements : List Json)
  /-- The members in the order of the text. -/
  | object (members : List (Option (List Char) × Json))

namespace Json

/-- The value of an integer: a number without fraction and exponent that is not minus zero. -/
def int? : Json → Option Int
  | number false whole true => some whole
  | number true whole true => if whole = 0 then none else some (-(whole : Int))
  | _ => none

/-- The value of a truth value. -/
def bool? : Json → Option Bool
  | bool value => some value
  | _ => none

end Json

end SqlSession
