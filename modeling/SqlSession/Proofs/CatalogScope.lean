import SqlSession.Proofs.Sends
import SqlSession.Proofs.Slots
import SqlSession.Proofs.Succession

/-!
# The catalog of a statement

Every command of a statement is sent while the catalog of the statement is selected, and after
an execution the catalog is the one before it. Only a refusal to select the former catalog again
leaves the connection in the catalog of the statement; the execution fails then, and what it was
given is closed.
-/

namespace SqlSession

namespace Execution

/-- The hooks that run because an execution closes the current and the pending result before it
sends anything. -/
def clearing (e : Execution) : List Hook :=
  (e.statement.current.toList ++ e.statement.pending.toList).flatMap Packet.closing

/-- The execution adds to the records of the connection, sends its commands in the catalog of its
statement, and leaves the selected catalog as one of the courses says. -/
structure Scoped (e : Execution) : Prop where
  dispatches : e.after.connection.dispatches = e.context.connection.dispatches ++ e.sent
  selections : e.after.connection.selections = e.context.connection.selections ++ e.selected
  own : ∀ d ∈ e.sent, d.catalog = e.statement.catalog
  course : CatalogCourse e.statement.catalog e.context.connection
    (e.context.released ++ e.clearing) e.outcome.result e.after e.sent e.selected

/-- What an execution sends and selects is what it adds to the records. -/
private theorem Scoped.of_added {e : Execution} (sent : List Dispatch) (selected : List String)
    (hd : e.after.connection.dispatches = e.context.connection.dispatches ++ sent)
    (hs : e.after.connection.selections = e.context.connection.selections ++ selected)
    (ho : ∀ d ∈ sent, d.catalog = e.statement.catalog)
    (hc : CatalogCourse e.statement.catalog e.context.connection
      (e.context.released ++ e.clearing) e.outcome.result e.after sent selected) : e.Scoped := by
  have hsent : e.sent = sent := by rw [Execution.sent, hd, List.drop_left]
  have hselected : e.selected = selected := by rw [Execution.selected, hs, List.drop_left]
  exact ⟨hsent ▸ hd, hselected ▸ hs, hsent ▸ ho, hsent ▸ hselected ▸ hc⟩

/-- Every execution keeps to the catalog of its statement. -/
theorem keeps_scope (e : Execution) : e.Scoped := by
  obtain ⟨s, c, kind, sql⟩ := e
  have hx := s.attempt_attempted c kind sql
  have hafter : (⟨s, c, kind, sql⟩ : Execution).outcome = s.attempt c kind sql := rfl
  generalize s.attempt c kind sql = o at hx hafter
  cases hx with
  | unsent _ he hk =>
    apply Scoped.of_added [] []
    · simp [after, hafter, hk]
    · simp [after, hafter, hk]
    · simp
    · rw [after, hafter]
      exact .kept (by rw [hk]) fun _ ↦ ⟨rfl, _, he⟩
  | @exchanged text l c' outcome hp hl hx hk he =>
    -- the exchange starts from the books at hand, with the former results closed
    have hbooks := Statement.connection_of_opening hl
    have hran : l.released =
        c.released ++ (s.current.toList ++ s.pending.toList).flatMap Packet.closing := by
      rw [Context.released_lock hl]
      simp [Statement.opening]
    obtain ⟨sent, selected, hsent⟩ :=
      Statement.exchange_exchanged (hbooks ▸ Statement.open_of_prepare hp) hx
    obtain ⟨n, hn⟩ := hk
    have hcourse := hsent.course
    rw [hbooks, hran] at hcourse
    apply Scoped.of_added sent selected
    · rw [after, hafter, hn, ← hbooks]
      exact hsent.dispatches
    · rw [after, hafter, hn, ← hbooks]
      exact hsent.selections
    · exact hsent.own
    · rw [after, hafter]
      have hcatalog : o.context.connection.catalog = c'.connection.catalog := by rw [hn]
      cases outcome with
      | ok p => exact hcourse.answered hcatalog _
      | error err =>
        obtain ⟨hr, hrel⟩ := he err rfl
        rw [hr]
        exact hcourse.later hcatalog hrel

end Execution

/-- Executions that follow on one another add the records of what they send. -/
theorem Execution.Follow.dispatches {ds ds' : List Dispatch} {es : List Execution}
    (h : Follow Connection.dispatches ds es ds') : ds' = ds ++ es.flatMap Execution.sent := by
  induction h with
  | nil ds => simp
  | @cons e es ds' _ ih => rw [ih, e.keeps_scope.dispatches, List.flatMap_cons, List.append_assoc]

/-- A call sends what its executions send. -/
theorem Statement.dispatches_perform (s : Statement) (c : Context) (call : Call) :
    (s.perform c call).context.connection.dispatches =
      c.connection.dispatches ++ (s.executions c call).flatMap Execution.sent :=
  (s.follow_perform (fun _ ↦ rfl) c call).dispatches

namespace Session

/-- In a session without commands of the application the executions follow on one another in what
they send. -/
theorem follow_dispatches {ops : List Operation} (hd : ∀ op ∈ ops, op.direct = false)
    (s : Session) :
    Execution.Follow Connection.dispatches s.context.connection.dispatches (s.executions ops)
      (s.run ops).context.connection.dispatches := by
  refine follow_run (fun _ ↦ rfl) (fun op hop call hcall c ↦ ?_) s
  exact (connectionCall_books (hcall ▸ hd op hop) c).1.dispatches

/-- Every execution of a session keeps to the catalog of its statement, and nothing is sent
besides. -/
theorem executions_scoped (connection : Connection) (ops : List Operation) :
    (∀ e ∈ (start connection).executions ops, e.Scoped) ∧
      ((∀ op ∈ ops, op.direct = false) →
        ((start connection).run ops).context.connection.dispatches =
          connection.dispatches ++
            ((start connection).executions ops).flatMap Execution.sent) :=
  ⟨fun e _ ↦ e.keeps_scope, fun hd ↦ (follow_dispatches hd (start connection)).dispatches⟩

/-- Two executions of a statement of another catalog: the former one cannot be selected again
behind the first, and the second starts from the own catalog. -/
theorem executions_scoped_stranded :
    let k : Connection := { catalog := "main", missingCatalog := some "main" }
    let ops : List Operation :=
      [.make (.catalog "other") {}, .call 0 (.query "SELECT 1"), .call 0 (.largeUpdate "UPDATE t")]
    (∀ op ∈ ops, op.direct = false) ∧
      ((start k).executions ops).map Execution.selected = [["other"], []] ∧
      (∀ e ∈ (start k).executions ops, e.Scoped) ∧
        ((start k).run ops).context.connection.dispatches =
          k.dispatches ++ ((start k).executions ops).flatMap Execution.sent := by
  intro k ops
  have hd : ∀ op ∈ ops, op.direct = false := by simp [ops, Operation.direct]
  exact ⟨hd, by decide +kernel, (executions_scoped k ops).1, (executions_scoped k ops).2 hd⟩

end Session

end SqlSession
