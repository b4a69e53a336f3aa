import SqlSession.Proofs.ExchangeLaw
import SqlSession.Proofs.SessionSteps

/-!
# What statements leave alone of a connection

Statements select catalogs, send commands, roll back and announce row limits. All else about a
connection is the application's affair: whether it is read-only, whether it commits by itself, how
large its packets may be, by which rules it answers.
-/

namespace SqlSession

namespace Connection

/-- The connection without all that statements leave on it. -/
def terms (k : Connection) : Connection :=
  { k with
    catalog := "", limitsRows := false, dispatches := [], selections := [], rollbacks := 0,
    announcements := 0, issued := 0 }

theorem readOnly_of_terms {k k' : Connection} (h : k'.terms = k.terms) :
    k'.readOnly = k.readOnly := by
  have hr := congrArg Connection.readOnly h
  exact hr

theorem packetBudget_of_terms {k k' : Connection} (h : k'.terms = k.terms) :
    k'.packetBudget = k.packetBudget := by
  have hb := congrArg Connection.packetBudget h
  exact hb

theorem terms_send (k : Connection) (cmd : Command) : (k.send cmd).2.terms = k.terms := by
  unfold send
  split
  · rfl
  · split <;> rfl

theorem terms_selectCatalog {k k' : Connection} {name : String}
    (h : k.selectCatalog name = .ok k') : k'.terms = k.terms := by
  rw [(selectCatalog_ok h).2]
  rfl

end Connection

namespace Statement

/-- An exchange leaves the terms of the connection alone. -/
theorem terms_exchangeLaw (s : Statement) :
    s.ExchangeLaw fun c c' ↦ c'.connection.terms = c.connection.terms where
  trans h h' := h'.trans h
  events c es := by rw [Context.connection_noteAll]
  directive c d := by
    have hk : (s.announcing c d).connection = c.connection := by simp [announcing]
    exact (Connection.terms_send _ _).trans (congrArg Connection.terms hk)
  text c _ _ _ := c.connection.terms_send _
  select h := Connection.terms_selectCatalog h

/-- Statements leave the terms of the connection alone. -/
theorem terms_law : StepLaw fun _ c _ c' ↦ c'.connection.terms = c.connection.terms where
  toQuietLaw := by
    refine .of_context (fun _ ↦ rfl) (fun h₁ h₂ ↦ h₂.trans h₁) (fun c es ↦ ?_) (fun v c ↦ ?_)
    · rw [Context.connection_noteAll]
    · cases v <;> rfl
  borrow _ _ _ := rfl
  log _ c rs := by rw [Context.connection_log]
  failedBatch _ c scope := by rw [Context.connection_count]
  attempt s c kind sql := by
    have hx := s.attempt_attempted c kind sql
    generalize s.attempt c kind sql = o at hx ⊢
    cases hx with
    | unsent _ _ hk => rw [hk]
    | @exchanged text l c' outcome _ hl hx hk _ =>
      obtain ⟨n, hn⟩ := hk
      have he := s.cleared.terms_exchangeLaw.exchange l text (s.shape kind text)
      rw [hx] at he
      rw [hn, ← connection_of_opening hl, ← he]
      rfl

end Statement

namespace Session

/-- Only a call of the application beside the statements can change the terms of the connection. -/
theorem terms_step (s : Session) {op : Operation} (hop : ∀ call, op ≠ .connection call) :
    (s.step op).2.context.connection.terms = s.context.connection.terms := by
  have law := Statement.terms_law
  have hstep := s.step_stepped op
  generalize (s.step op).2 = s' at hstep ⊢
  cases hstep with
  | idle => rfl
  | made _ _ _ hf => exact law.runSetters hf _ s.context
  | unmade _ _ _ hf => exact (law.close _ _).trans (law.runSetters hf _ s.context)
  | called _ call => exact law.perform _ s.context call
  | dropped _ => exact law.close _ s.context
  | beside call => exact absurd rfl (hop call)
  | underwent _ f => cases f <;> rfl

end Session

end SqlSession
