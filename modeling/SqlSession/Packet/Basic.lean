import SqlSession.Options
import SqlSession.Rows
import SqlSession.Warning

/-!
# Packets

What a server answers to one command: a response with rows or with an update count, followed
by any number of further responses. A packet is the list of its responses with the first one
apart; taking the follow-ons off and binding to a statement are operations on that list.

Specification: §6 and §10.7.
-/

namespace SqlSession

/-- What a release hook does to the shared connection besides releasing its result. -/
inductive Hook.Effect where
  /-- The mutex of the connection is poisoned while the application holds the connection. -/
  | poison
  /-- The application gives up the connection. -/
  | dropConnection
  deriving DecidableEq

/-- An action that releases what a response holds on the server. Spec §10.7, `ReleaseHook`. -/
structure Hook where
  tag : String
  /-- The error that the action ends with. -/
  failure : Option SqlError := none
  effect : Option Hook.Effect := none
  /-- The number that tells this hook from all others that a connection has issued. -/
  serial : Nat := 0
  deriving DecidableEq

/-- The statement that a response belongs to, and the shape it was asked for. Spec §10.7, `bind`. -/
structure Binding where
  statement : Option Nat := none
  resultSetType : ResultSetType := .forwardOnly
  concurrency : Concurrency := .readOnly
  deriving DecidableEq

/-- One response of a server. Spec §10.7, `ResultSet`. -/
structure Response where
  rows : Option RowTable := none
  updateCount : Int64 := -1
  generatedKey : Int64 := noKey
  warnings : Warnings := []
  binding : Binding := {}
  /-- The row that the cursor is on; before the first row there is none. -/
  cursor : Option Nat := none
  closed : Bool := false
  release : Option Hook := none
  deriving DecidableEq

namespace Response

/-- The response carries rows, be it none of them. Spec §10.7, `really_result`. -/
def hasRows (r : Response) : Bool := r.rows.isSome

/-- The number of rows. Spec §10.7, `row_count`. -/
def rowCount (r : Response) : Nat :=
  match r.rows with
  | some t => t.rows.length
  | none => 0

/-- A response with rows. Spec §10.7, `with_rows`. -/
def ofRows (t : RowTable) : Response := { rows := some t }

/-- A response with an update count and a generated key. Spec §10.7, `update`. -/
def ofUpdate (count key : Int64) : Response := { updateCount := count, generatedKey := key }

/-- A response of one row that holds a generated key. Spec §10.6, `generated_key_result`. -/
def ofKey (key : Int64) : Response :=
  ofRows (RowTable.single "GENERATED_KEY" .integer (Decimal.render key.toInt))

/-- The response with a chain of warnings behind those that it has. Spec §10.7, `with_warning`. -/
def withWarning (r : Response) (chain : WarningChain) : Response :=
  match WarningChain.ofList? r.warnings with
  | some head => { r with warnings := (head.attach chain).toList }
  | none => { r with warnings := chain.toList }

/-- The response with chains of warnings behind those that it has, one after the other. -/
def warned (r : Response) (chains : List WarningChain) : Response := chains.foldl withWarning r

/-- A chain goes behind the warnings that are there, and nothing else changes. -/
theorem withWarning_eq (r : Response) (chain : WarningChain) :
    r.withWarning chain = { r with warnings := r.warnings ++ chain.toList } := by
  have hr := WarningChain.toList_ofList? r.warnings
  unfold withWarning
  cases h : WarningChain.ofList? r.warnings with
  | none =>
    rw [h] at hr
    have hnone : r.warnings = [] := hr.symm
    rw [hnone, List.nil_append]
  | some head =>
    rw [h] at hr
    have hhead : r.warnings = head.toList := hr.symm
    rw [hhead, ← WarningChain.toList_attach]

/-- Nothing is lost, repeated or put elsewhere when chains are added to a response. -/
theorem warned_eq (r : Response) (chains : List WarningChain) :
    r.warned chains =
      { r with warnings := r.warnings ++ chains.flatMap WarningChain.toList } := by
  induction chains generalizing r with
  | nil => simp [warned]
  | cons chain rest ih =>
    rw [warned, List.foldl_cons, ← warned, ih, withWarning_eq, List.flatMap_cons,
      List.append_assoc]

/-- The response with its hook, if it has one, numbered, and the first number not used. -/
def number (n : Nat) (r : Response) : Response × Nat :=
  match r.release with
  | some h => ({ r with release := some { h with serial := n } }, n + 1)
  | none => (r, n)

end Response

/-- A response and the responses that followed it. -/
structure Packet where
  head : Response
  followOns : List Response := []
  deriving DecidableEq

namespace Packet

/-- All responses in their order. -/
def toList (p : Packet) : List Response := p.head :: p.followOns

/-- The hooks that have not run yet, in the order of the responses. -/
def hooks (p : Packet) : List Hook := p.toList.filterMap Response.release

/-- The packet with its first response bound. Spec §10.7, `bind`. -/
def bind (p : Packet) (b : Binding) : Packet := { p with head := { p.head with binding := b } }

/-- The follow-ons as a packet of their own. Spec §10.7, `take_next`. -/
def next? (p : Packet) : Option Packet :=
  match p.followOns with
  | [] => none
  | r :: rest => some ⟨r, rest⟩

/-- The packet without its follow-ons. Spec §10.7, `take_next`. -/
def withoutNext (p : Packet) : Packet := { p with followOns := [] }

/-- The packet without the warnings of its first response. Spec §10.7, `take_warnings`. -/
def withoutWarnings (p : Packet) : Packet := { p with head := { p.head with warnings := [] } }

/-- The responses with their hooks numbered from the given number on, and the first number not
used. -/
def numberHooks (n : Nat) : List Response → List Response × Nat
  | [] => ([], n)
  | r :: rest =>
    let q := r.number n
    let t := numberHooks q.2 rest
    (q.1 :: t.1, t.2)

/-- The packet with its hooks numbered from the given number on, and the first number not
used. -/
def issue (n : Nat) (p : Packet) : Packet × Nat :=
  let q := p.head.number n
  let t := numberHooks q.2 p.followOns
  (⟨q.1, t.1⟩, t.2)

/-- Binding changes no hook. -/
theorem hooks_bind (p : Packet) (b : Binding) : (p.bind b).hooks = p.hooks := by
  simp [bind, hooks, toList, List.filterMap_cons]

/-- A packet's hooks are those of its first response and those of its follow-ons. -/
theorem hooks_eq (p : Packet) :
    p.hooks = p.withoutNext.hooks ++ (match p.next? with
      | some q => q.hooks
      | none => []) := by
  obtain ⟨r, l⟩ := p
  cases l <;> cases h : r.release <;>
    simp [hooks, toList, withoutNext, next?, List.filterMap_cons, h]

end Packet

end SqlSession
