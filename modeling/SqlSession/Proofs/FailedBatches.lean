import SqlSession.Proofs.BatchUpdates

/-!
# What a failed batch tells

A batch that is not refused fails exactly if one of its entries does, and it speaks for the last
one: message, SQLSTATE and native code are those of that failure. The SQLSTATE therefore tells a
caller whether the connection was lost. The classification of errors does not: it knows no failed
batch, and takes all of them for fatal.
-/

namespace SqlSession

namespace Execution

/-- The error that the execution ends with. -/
def failure? (e : Execution) : Option SqlError :=
  match e.outcome.result with
  | .ok _ => none
  | .error x => some x

/-- What a batch reports for the execution of an entry. -/
def reported (e : Execution) : Int32 :=
  match e.outcome.result with
  | .ok p => Statement.narrowCount p.head.updateCount
  | .error _ => failedEntry

/-- The error of the last execution that failed. -/
def lastFailure? (es : List Execution) : Option SqlError := (es.filterMap failure?).getLast?

/-- An execution in front is the last one that failed only if none behind it failed. -/
theorem lastFailure?_cons (x : Execution) (es : List Execution) :
    lastFailure? (x :: es) = (lastFailure? es <|> x.failure?) := by
  rw [lastFailure?, lastFailure?, List.filterMap_cons]
  cases x.failure? with
  | none => cases (es.filterMap failure?).getLast? <;> rfl
  | some e =>
    rw [List.getLast?_cons]
    cases (es.filterMap failure?).getLast? <;> rfl

end Execution

namespace SqlError

/-- Unless a batch failed, the class `08` tells that the connection was lost. -/
theorem lostConnection_eq {e : SqlError} (h : e.counts? = none) :
    e.lostConnection = e.state.isConnectionClass := by
  cases e with
  | batchFailure _ _ _ _ => simp [counts?] at h
  | _ => rfl

/-- A lost connection shows in the SQLSTATE. -/
theorem isConnectionClass_of_lost {e : SqlError} (h : e.lostConnection = true) :
    e.state.isConnectionClass = true := by
  cases e with
  | batchFailure _ _ _ _ => simp [lostConnection] at h
  | _ => rw [← lostConnection_eq rfl, h]

end SqlError

namespace Statement

open Execution (lastFailure? lastFailure?_cons)

/-- The course of a batch reports every entry, and the last error is that of the last entry that
failed. -/
theorem runEntries_reported (entries : List String) (s : Statement) (c : Context) :
    (s.runEntries c entries).counts = (s.entryExecutions c entries).map Execution.reported ∧
      (s.runEntries c entries).lastError = lastFailure? (s.entryExecutions c entries) := by
  induction entries generalizing s c with
  | nil => exact ⟨rfl, rfl⟩
  | cons sql rest ih =>
    obtain ⟨hcounts, hlast⟩ :=
      ih (s.attempt c .update sql).statement (s.afterEntry (s.attempt c .update sql))
    rw [runEntries_cons_eq, entryExecutions, List.map_cons, lastFailure?_cons, ← hcounts, ← hlast,
      Execution.reported, Execution.failure?, Execution.outcome]
    dsimp only
    cases (s.attempt c .update sql).result with
    | ok p => simp
    | error e => exact ⟨rfl, rfl⟩

/-- No batch is refused with the error of a failed one. -/
theorem counts?_batchRefusal {s : Statement} {c : Context} {e : SqlError}
    (h : s.batchRefusal? c = some e) : e.counts? = none := by
  have hreason : e = .onClosedStatement ∨ e = .connectionClosed ∨ e = .internal .lockFailed ∨
      e = .readOnlyViolation := by
    unfold batchRefusal? at h
    grind
  rcases hreason with rfl | rfl | rfl | rfl <;> rfl

/-- A batch that is not refused answers with all counts if no entry fails, and otherwise with an
error that speaks for the last failure. -/
theorem result_runBatch (s : Statement) (c : Context) :
    (s.runBatch c).result = match s.batchRefusal? c with
      | some e => .error e
      | none => match lastFailure? (s.batchExecutions c) with
        | none => .ok ((s.batchExecutions c).map Execution.reported)
        | some e => .error (batchError e ((s.batchExecutions c).map Execution.reported)) := by
  have hr : { s with queue := [] }.batchRefusal? c = s.batchRefusal? c := rfl
  rw [runBatch_eq, batchExecutions, checkBatch_eq, hr]
  cases s.batchRefusal? c with
  | some e => rfl
  | none =>
    obtain ⟨hcounts, hlast⟩ :=
      runEntries_reported s.queue { s with queue := [] } { c with borrowed := true }
    dsimp only
    rw [hcounts, hlast]
    cases lastFailure? _ <;> rfl

/-- The error of a failed batch is made of the last failure and the outcomes of all entries. -/
theorem eq_batchError {s : Statement} {c : Context} {f : SqlError}
    (h : (s.runBatch c).result = .error f) (hf : f.counts? ≠ none) :
    ∃ e, lastFailure? (s.batchExecutions c) = some e ∧
      f = batchError e ((s.batchExecutions c).map Execution.reported) := by
  rw [result_runBatch] at h
  cases hr : s.batchRefusal? c with
  | some e =>
    rw [hr] at h
    rw [← Except.error.inj h] at hf
    exact absurd (counts?_batchRefusal hr) hf
  | none =>
    rw [hr] at h
    cases hl : lastFailure? (s.batchExecutions c) with
    | none =>
      rw [hl] at h
      cases h
    | some e =>
      rw [hl] at h
      exact ⟨e, rfl, (Except.error.inj h).symm⟩

/-- A failed batch has message, SQLSTATE and native code of the last entry that failed, and so its
SQLSTATE tells whether that entry lost the connection; its category is fatal all the same. -/
theorem failed_batch_tells {s : Statement} {c : Context} {f : SqlError} {counts : List Int32}
    (h : (s.runBatch c).result = .error f) (hf : f.counts? = some counts) :
    ∃ e, lastFailure? (s.batchExecutions c) = some e ∧
      counts = (s.batchExecutions c).map Execution.reported ∧
      f.message = e.message ∧ f.state = e.state ∧ f.native = e.native ∧
      (e.lostConnection = true → f.state.isConnectionClass = true) ∧
      (e.counts? = none → f.state.isConnectionClass = true → e.lostConnection = true) ∧
      f.lostConnection = false ∧ f.category = .fatal := by
  obtain ⟨e, he, rfl⟩ := eq_batchError h (by simp [hf])
  have hcounts := Option.some.inj hf
  refine ⟨e, he, hcounts.symm, rfl, rfl, rfl, SqlError.isConnectionClass_of_lost, ?_, rfl, rfl⟩
  intro hplain hclass
  rw [SqlError.lostConnection_eq hplain]
  exact hclass

/-- The connection is lost at the second of three entries, which is the last one that fails. -/
theorem failed_batch_tells_loss :
    let lost : SqlError := .structured (.ascii '0' '8' 'S' '0' '1') 2013 "Lost connection"
    let k : Connection :=
      { catalog := "main"
        rules := [⟨"missing", fun _ ↦ .error (Connection.unknownCatalog "x")⟩,
          ⟨"lost", fun _ ↦ .error lost⟩] }
    let s := (Session.start k).run
      [.make .plain {}, .call 0 (.enqueue "UPDATE missing"), .call 0 (.enqueue "UPDATE lost"),
        .call 0 (.enqueue "UPDATE t")]
    let f : SqlError := batchError lost [-3, -3, 1]
    ∃ t, s.statement? 0 = some t ∧ (t.runBatch s.context).result = .error f ∧
      f.counts? = some [-3, -3, 1] ∧
      ∃ e, lastFailure? (t.batchExecutions s.context) = some e ∧ e.message = "Lost connection" ∧
        (e.lostConnection = true → f.state.isConnectionClass = true) ∧
        f.lostConnection = false ∧ f.category = .fatal := by
  intro lost k s f
  have ht : s.statement? 0 = some ((s.statement? 0).get rfl) := (Option.some_get rfl).symm
  have hf : (((s.statement? 0).get rfl).runBatch s.context).result = .error f := by decide +kernel
  obtain ⟨e, he, -, hmessage, -, -, hclass, -, hlost, hfatal⟩ := failed_batch_tells hf rfl
  exact ⟨_, ht, hf, rfl, e, he, hmessage.symm, hclass, hlost, hfatal⟩

/-- The only entry of a batch fails for a lost connection, which asks for a new connection; the
error of the batch does not. -/
theorem lost_batch_fatal :
    let k : Connection :=
      { catalog := "main"
        rules := [⟨"lost", fun _ ↦
          .error (.structured (.ascii '0' '8' 'S' '0' '1') 2013 "Lost connection")⟩] }
    let s := (Session.start k).run [.make .plain {}, .call 0 (.enqueue "UPDATE lost")]
    ∃ t e f, s.statement? 0 = some t ∧ (t.runBatch s.context).result = .error f ∧
      f.counts? = some [-3] ∧ lastFailure? (t.batchExecutions s.context) = some e ∧
      e.lostConnection = true ∧ e.category = .connectionLost ∧
      f.lostConnection = false ∧ f.category ≠ .connectionLost := by
  intro k s
  have ht : s.statement? 0 = some ((s.statement? 0).get rfl) := (Option.some_get rfl).symm
  let lost : SqlError := .structured (.ascii '0' '8' 'S' '0' '1') 2013 "Lost connection"
  exact ⟨_, lost, batchError lost [-3], ht, by decide +kernel, rfl, by decide +kernel, by decide,
    by decide, rfl, by decide⟩

end Statement

end SqlSession
