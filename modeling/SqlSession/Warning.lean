import SqlSession.Error

/-!
# Warnings

A chain of warnings is their list in order; attaching a warning with anything chained behind
it appends that list.

Specification: §10.7.
-/

namespace SqlSession

/-- One diagnostic that is no error. Spec §10.7, `SqlWarning`. -/
structure Warning where
  message : String
  state : SqlState := .generalWarning
  vendorCode : Int32 := 0
  deriving DecidableEq

/-- Warnings in the order of their chain. -/
abbrev Warnings : Type := List Warning

/-- A warning together with what is chained behind it. -/
inductive WarningChain where
  /-- Nothing is chained behind the warning. -/
  | last (warning : Warning)
  | link (warning : Warning) (behind : WarningChain)
  deriving DecidableEq

namespace WarningChain

/-- The warnings from the first to the last. Spec §10.7, `iter`. -/
def toList : WarningChain → Warnings
  | last w => [w]
  | link w behind => w :: behind.toList

/-- The chain with another one at its tail. Spec §10.7, `chain`. -/
def attach : WarningChain → WarningChain → WarningChain
  | last w, chain => link w chain
  | link w behind, chain => link w (behind.attach chain)

/-- The chain of warnings; without warnings there is none. -/
def ofList? : Warnings → Option WarningChain
  | [] => none
  | w :: r =>
    match ofList? r with
    | some behind => some (link w behind)
    | none => some (last w)

/-- Attaching a chain appends its warnings. -/
@[simp]
theorem toList_attach (a b : WarningChain) : (a.attach b).toList = a.toList ++ b.toList := by
  induction a with
  | last w => rfl
  | link w behind ih => simp [attach, toList, ih]

/-- The warnings of a chain are those that it is made of. -/
theorem toList_ofList? (ws : Warnings) : ((ofList? ws).map toList).getD [] = ws := by
  induction ws with
  | nil => rfl
  | cons w r ih =>
    rw [ofList?]
    cases h : ofList? r with
    | none =>
      rw [h] at ih
      rw [← ih]
      rfl
    | some behind =>
      rw [h] at ih
      exact congrArg (w :: ·) ih

end WarningChain

end SqlSession
