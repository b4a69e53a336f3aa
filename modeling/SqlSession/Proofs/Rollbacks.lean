import SqlSession.Proofs.Alike
import SqlSession.Proofs.Obtained

/-!
# Rollbacks

Statements roll back for one reason only: an execution rejects its packet for its sort. Then they do
it once, behind the release of the packet, if the connection does not commit by itself and can still
be locked.
-/

namespace SqlSession

namespace Context

@[simp]
theorem alive_log (c : Context) (rs : List Log.Record) : (c.log rs).alive = c.alive := by
  rw [alive, alive, (Alike.logged c rs).held, borrowed_law.log c rs]

@[simp]
theorem poisoned_log (c : Context) (rs : List Log.Record) : (c.log rs).poisoned = c.poisoned :=
  (Alike.logged c rs).poisoned

/-- The connection does not commit by itself, somebody holds it, and its mutex can be taken. -/
def revertible (c : Context) : Bool := !c.connection.autoCommit && c.alive && !c.poisoned

@[simp]
theorem revertible_log (c : Context) (rs : List Log.Record) :
    (c.log rs).revertible = c.revertible := by
  simp [revertible]

@[simp]
theorem revertible_unlock (c : Context) : c.unlock.revertible = c.revertible := rfl

end Context

namespace Statement

/-- The bindings and the warnings of a packet do not decide what closing it does. -/
theorem closing_adopt (s : Statement) (p : Packet) : (s.adopt p).closing = p.closing := rfl

/-- An open statement has the connection count a rollback where one is possible, and leaves one as
possible as before. -/
theorem undo_rollbacks {s : Statement} {c : Context} (hs : s.closed = false)
    (ha : s.attached = true) :
    (s.undo c).connection.rollbacks = c.connection.rollbacks + c.revertible.toNat ∧
      (s.undo c).revertible = c.revertible := by
  have hu : s.usable c = if c.alive then .ok () else .error .connectionClosed := by
    simp [usable, hs, ha]
  unfold undo
  rw [hu]
  cases hl : c.alive with
  | false => simp [Context.revertible, hl]
  | true =>
    rw [if_pos rfl]
    cases hp : c.poisoned with
    | true => simp [Context.revertible, Context.lock, hp]
    | false =>
      have hlock : c.lock = .ok { c with locked := true } := by simp [Context.lock, hp]
      rw [hlock]
      cases hc : c.connection.autoCommit with
      | true => simp [Context.revertible, Context.unlock, hc]
      | false =>
        have hr : c.revertible = true := by simp [Context.revertible, hl, hp, hc]
        -- whatever the connection replies, it has counted
        have hback : ({ c with connection := c.connection.rollback.2 } : Context).revertible =
            true := hr
        rw [hr]
        dsimp only
        rw [if_neg (by simp [hc])]
        split
        · refine ⟨by simp [Connection.rollback], ?_⟩
          rw [Context.revertible_unlock, Context.revertible_log]
          exact hback
        · exact ⟨by simp [Connection.rollback], hback⟩

end Statement

namespace Execution

/-- The packet that the execution obtains and rejects for its sort. -/
def rejected? (e : Execution) : Option Packet :=
  e.obtained?.filter fun p ↦ (e.kind.mismatch? p).isSome

/-- The execution rejects a packet, and behind that the connection does not commit by itself, is
alive and can be locked. -/
def rollsBack (e : Execution) : Bool := e.rejected?.isSome && e.after.revertible

/-- How an execution ends that rejects a packet: behind the release of the packet, in the
surroundings `d`, it rolls back if it can, and fails for the sort of the packet. -/
structure Rejection (e : Execution) (p : Packet) (d : Context) : Prop where
  fails : ∃ err, e.kind.mismatch? p = some err ∧ e.outcome.result = .error err
  current : e.outcome.statement.current = none
  pending : e.outcome.statement.pending = none
  /-- All that closing the packet runs has run, and nothing behind it. -/
  released : p.closing <:+ d.released
  /-- If the packet was open, these are the hooks of all its responses, the last one first. -/
  hooks : p.Open → p.hooks.reverse <:+ d.released
  /-- Nothing has been rolled back by then. -/
  rollbacks : d.connection.rollbacks = e.context.connection.rollbacks
  undone : e.after = e.outcome.statement.undo d
  revertible : e.after.revertible = d.revertible

/-- An execution that passes its checks belongs to a statement that is open and attached. -/
theorem standing_of_refusal? {e : Execution} (h : e.refusal? = none) :
    e.statement.closed = false ∧ e.statement.attached = true := by
  cases hp : e.statement.prepare e.context e.kind e.sql with
  | error err =>
    have hr : e.refusal? = some err := Statement.prepare_error_iff.1 hp
    rw [h] at hr
    simp at hr
  | ok text =>
    obtain ⟨hc, ha, -⟩ := Statement.usable_ok (Statement.usable_of_prepare hp)
    exact ⟨hc, ha⟩

/-- An execution counts one rollback if it rejects a packet and can still roll back behind its
release, and none else. -/
theorem rollbacks_once (e : Execution) :
    e.after.connection.rollbacks = e.context.connection.rollbacks + e.rollsBack.toNat ∧
      ∀ p, e.rejected? = some p → ∃ d, e.Rejection p d := by
  have hx := e.ending
  have hrejected : e.rejected? = e.obtained?.filter fun p ↦ (e.kind.mismatch? p).isSome := rfl
  have hafter : e.after = e.outcome.context := rfl
  -- without a rejected packet there is nothing to roll back
  have kept (hnone : e.rejected? = none)
      (hk : e.after.connection.rollbacks = e.context.connection.rollbacks) :
      e.after.connection.rollbacks = e.context.connection.rollbacks + e.rollsBack.toNat ∧
        ∀ p, e.rejected? = some p → ∃ d, e.Rejection p d :=
    ⟨by simp [rollsBack, hnone, hk], by simp [hnone]⟩
  generalize e.obtained? = obtained at hx hrejected
  generalize ho : e.outcome = o at hx hafter
  cases hx with
  | refused h => exact kept hrejected (by rw [hafter])
  | failed h _ hk => exact kept hrejected (by rw [hafter, hk])
  | presented h _ hm hk => exact kept (by simp [hrejected, hm]) (by rw [hafter, hk])
  | @rejected p err c h _ hm hk =>
    have hp : e.rejected? = some p := by simp [hrejected, hm]
    obtain ⟨hs, ha⟩ := standing_of_refusal? h
    have hundo := Statement.undo_rollbacks (s := e.statement.cleared.noting p)
      (c := c.release (e.statement.adopt p)) hs ha
    have hclosing : (c.release (e.statement.adopt p)).released = c.released ++ p.closing := by
      rw [Context.released_release, Statement.closing_adopt]
    rw [Context.connection_release, hk] at hundo
    refine ⟨?_, fun q hq ↦ ?_⟩
    · rw [rollsBack, hp, hafter]
      exact hundo.2 ▸ hundo.1
    · obtain rfl := Option.some.inj (hp.symm.trans hq)
      refine ⟨c.release (e.statement.adopt p), ⟨err, hm, by rw [ho]⟩, by rw [ho]; rfl,
        by rw [ho]; rfl, ?_, fun hopen ↦ ?_, ?_, by rw [hafter, ho]; rfl, ?_⟩
      · rw [hclosing]
        exact List.suffix_append _ _
      · rw [hclosing, Packet.closing, Packet.release, Response.hooks_releaseChain hopen]
        exact List.suffix_append _ _
      · rw [Context.connection_release, hk]
      · rw [hafter]
        exact hundo.2

/-- Where no packet is rejected, an error comes from the checks, the mutex or the connection. -/
theorem failure_of_unrejected {e : Execution} {err : SqlError}
    (he : e.outcome.result = .error err) (hr : e.rejected? = none) :
    e.refusal? = some err ∨ ∃ text, e.statement.expanded e.sql = .ok text ∧
      e.statement.Failure e.context e.kind text err none := by
  have hx := e.ending
  unfold rejected? at hr
  generalize e.obtained? = obtained at hx hr
  generalize e.outcome = o at hx he
  cases hx with
  | refused h => exact .inl (h.trans (congrArg some (Except.error.inj he)))
  | failed _ hf _ => exact .inr (Except.error.inj he ▸ hf)
  | rejected _ _ hm _ => simp [hm] at hr
  | presented _ _ _ _ => simp at he

/-- Executions that follow on one another count the rollbacks that they cost. -/
theorem Follow.rollbacks {n n' : Nat} {es : List Execution}
    (h : Follow Connection.rollbacks n es n') : n' = n + es.countP rollsBack := by
  induction h with
  | nil n => rfl
  | @cons e es n' _ ih =>
    rw [ih, e.rollbacks_once.1, List.countP_cons, Nat.add_assoc, Nat.add_comm (Bool.toNat _)]
    cases e.rollsBack <;> rfl

end Execution

namespace Session

/-- The rollbacks of an operation that is no call of a statement: one if the application rolls the
connection back itself. -/
def ownRollback (s : Session) : Operation → Nat
  | .connection .rollback => s.context.held.toNat
  | _ => 0

/-- The rollbacks of the application itself in a run. -/
def ownRollbacks (s : Session) : List Operation → Nat
  | [] => 0
  | op :: rest => s.ownRollback op + (s.step op).2.ownRollbacks rest

/-- No other call beside the statements rolls back. -/
theorem rollbacks_connectionCall (c : Context) {call : ConnectionCall} (h : call ≠ .rollback) :
    (connectionCall c call).2.connection.rollbacks = c.connection.rollbacks := by
  cases call with
  | rollback => exact absurd rfl h
  | selectCatalog name =>
    unfold connectionCall
    dsimp only
    split
    · next k hk => rw [(Connection.selectCatalog_ok hk).2]
    · rfl
  | execute cmd =>
    unfold connectionCall Context.send Connection.send
    dsimp only
    split
    · rfl
    · split <;> rfl
  | _ => rfl

/-- An operation costs the rollbacks of its executions, or the one that it is. -/
theorem rollbacks_step (s : Session) (op : Operation) :
    (s.step op).2.context.connection.rollbacks =
      s.context.connection.rollbacks + (s.executionsOf op).countP Execution.rollsBack +
        s.ownRollback op := by
  by_cases hop : op = .connection .rollback
  · subst hop
    cases hh : s.context.held <;>
      simp [step, executionsOf, ownRollback, connectionCall, Connection.rollback, hh]
    split <;> rfl
  · have hown : s.ownRollback op = 0 := by
      unfold ownRollback
      split
      · exact absurd rfl hop
      · rfl
    have hfollow : Execution.Follow Connection.rollbacks s.context.connection.rollbacks
        (s.executionsOf op) (s.step op).2.context.connection.rollbacks :=
      s.follow_step (fun _ ↦ rfl) fun call hcall ↦
        rollbacks_connectionCall s.context fun h ↦ hop (h ▸ hcall)
    rw [hfollow.rollbacks, hown, Nat.add_zero]

/-- A run costs the rollbacks of its executions and those of the application itself. -/
theorem rollbacks_run (s : Session) (ops : List Operation) :
    (s.run ops).context.connection.rollbacks =
      s.context.connection.rollbacks + (s.executions ops).countP Execution.rollsBack +
        s.ownRollbacks ops := by
  induction ops generalizing s with
  | nil => rfl
  | cons op rest ih =>
    have hrun : s.run (op :: rest) = (s.step op).2.run rest := rfl
    rw [hrun, ih, rollbacks_step, executions, List.countP_append, ownRollbacks]
    omega

/-- The connection is rolled back once for every execution of a run that rejects a packet and can
still roll back behind its release, and for nothing else but the application itself. Such an
execution has released the packet before, fails for its sort, and leaves both slots empty. -/
theorem rollbacks_exact (connection : Connection) (ops : List Operation) :
    let s := start connection
    (s.run ops).context.connection.rollbacks =
        connection.rollbacks + (s.executions ops).countP Execution.rollsBack +
          s.ownRollbacks ops ∧
      ∀ e ∈ s.executions ops,
        e.after.connection.rollbacks = e.context.connection.rollbacks + e.rollsBack.toNat ∧
        (∀ p, e.rejected? = some p → ∃ d, e.Rejection p d) ∧
        ∀ err, e.outcome.result = .error err → e.rejected? = none →
          e.refusal? = some err ∨ ∃ text, e.statement.expanded e.sql = .ok text ∧
            e.statement.Failure e.context e.kind text err none := by
  intro s
  refine ⟨s.rollbacks_run ops, fun e _ ↦ ?_⟩
  obtain ⟨hcount, hrejection⟩ := e.rollbacks_once
  exact ⟨hcount, hrejection, fun err ↦ Execution.failure_of_unrejected⟩

/-- A query that changes rows and an entry of a batch that gives some are rolled back, though the
connection refuses that, and then the application rolls back itself. -/
theorem rollbacks_exact_refused :
    let k : Connection := { catalog := "main", autoCommit := false, failRollback := true }
    let ops : List Operation :=
      [.make .plain {}, .call 0 (.query "UPDATE t"), .call 0 (.enqueue "UPDATE t"),
        .call 0 (.enqueue "SELECT 1"), .call 0 .runBatch, .connection .rollback]
    let s := start k
    (s.executions ops).map Execution.rollsBack = [true, false, true] ∧
      (s.run ops).context.connection.rollbacks = 3 ∧
      ∃ e p d, (s.executions ops).head? = some e ∧ e.rejected? = some p ∧ e.Rejection p d ∧
        e.outcome.result = .error .notAQuery := by
  intro k ops s
  obtain ⟨hcount, hexact⟩ := rollbacks_exact k ops
  let e := (s.executions ops).head (List.cons_ne_nil _ _)
  have hmem : e ∈ s.executions ops := List.head_mem _
  have hp : e.rejected? = some (e.rejected?.get (by decide +kernel)) := (Option.some_get _).symm
  obtain ⟨d, hd⟩ := (hexact e hmem).2.1 _ hp
  obtain ⟨err, hm, he⟩ := hd.fails
  have hsort : e.kind.mismatch? (e.rejected?.get (by decide +kernel)) = some .notAQuery := by
    decide +kernel
  rw [← Option.some.inj (hsort.symm.trans hm)] at he
  have hrolls : (s.executions ops).map Execution.rollsBack = [true, false, true] := by
    decide +kernel
  have hthree : k.rollbacks + (s.executions ops).countP Execution.rollsBack + s.ownRollbacks ops =
      3 := by decide +kernel
  exact ⟨hrolls, hcount.trans hthree, e, _, d, (List.head?_eq_some_head _), hp, hd, he⟩

end Session

end SqlSession
