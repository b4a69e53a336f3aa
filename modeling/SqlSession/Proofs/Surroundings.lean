import SqlSession.Proofs.ExchangeLaw
import SqlSession.Proofs.StepLaw

/-!
# What executions keep of their surroundings

An execution changes its surroundings by events, by sending commands, by taking and leaving the
mutex, and by counting. `Context.Law` says of a relation that each of these keeps it, and
`Context.Law.attempt` gives it for a whole execution. What executes nothing does less.
-/

namespace SqlSession

/-- A relation between the surroundings before and after, which every part of an execution keeps. -/
structure Context.Law (R : Context → Context → Prop) : Prop where
  refl (c : Context) : R c c
  trans {c d e : Context} : R c d → R d e → R c e
  note (c : Context) (e : Event) : R c (c.note e)
  locked (c : Context) (locked : Bool) : R c { c with locked }
  /-- No command changes the rules of a connection. -/
  connection (c : Context) {k : Connection} (h : k.rules = c.connection.rules) :
    R c { c with connection := k }
  /-- Executions count no failed batch. -/
  count (c : Context) (scope : Metrics.Scope) {f : Metrics → Metrics}
    (h : ∀ m, (f m).batchFailures = m.batchFailures) : R c (c.count scope f)

namespace Context.Law

variable {R : Context → Context → Prop}

theorem noteAll (law : Law R) (c : Context) (es : List Event) : R c (c.noteAll es) := by
  induction es generalizing c with
  | nil => exact law.refl c
  | cons e rest ih => exact law.trans (law.note c e) (ih (c.note e))

theorem log (law : Law R) (c : Context) (rs : List Log.Record) : R c (c.log rs) :=
  law.noteAll c _

theorem release (law : Law R) (c : Context) (p : Packet) : R c (c.release p) :=
  law.noteAll c _

theorem releaseSlot (law : Law R) (c : Context) (slot : Option Packet) :
    R c (c.releaseSlot slot) := by
  rw [releaseSlot_eq]
  exact law.noteAll c _

theorem lock (law : Law R) {c l : Context} (h : c.lock = .ok l) : R c l := by
  rw [lock_ok h]
  exact law.locked c true

theorem unlock (law : Law R) (c : Context) : R c c.unlock := law.locked c false

theorem send (law : Law R) (c : Context) (cmd : Command) : R c (c.send cmd).2 := by
  apply law.connection c
  unfold Connection.send
  split
  · rfl
  · split <;> rfl

/-- Every part of an exchange keeps the law. -/
theorem exchangeLaw (law : Law R) (s : Statement) : s.ExchangeLaw R where
  trans := law.trans
  events := law.noteAll
  directive c d := by
    have hannounced : R c (s.announcing c d) :=
      law.trans (law.log c _) (law.count _ _ fun _ ↦ rfl)
    exact law.trans hannounced (law.send _ _)
  text c _ _ _ := law.send c _
  select {c} _ _ h := by
    apply law.connection c
    rw [(Connection.selectCatalog_ok h).2]

/-- A rollback behind a packet of the wrong sort keeps the law. -/
theorem undo (law : Law R) (s : Statement) (c : Context) : R c (s.undo c) := by
  unfold Statement.undo
  split
  · exact law.refl c
  · split
    · exact law.log c _
    · next l hl =>
      have hlock := law.lock hl
      have hback : R c { l with connection := l.connection.rollback.2 } :=
        law.trans hlock (law.connection l rfl)
      split
      · exact law.trans hlock (law.unlock l)
      · dsimp only
        split
        · exact law.trans (law.trans hback (law.log _ _)) (law.unlock _)
        · exact law.trans hback (law.unlock _)

/-- An execution keeps the law. -/
theorem attempt (law : Law R) (s : Statement) (c : Context) (kind : StatementKind)
    (sql : String) : R c (s.attempt c kind sql).context := by
  have hx := s.attempt_course c kind sql
  generalize s.attempt c kind sql = o at hx ⊢
  have opening (text : String) : R c (s.opening c kind text) :=
    law.trans (law.trans (law.releaseSlot c _) (law.releaseSlot _ _)) (law.log _ _)
  have exchanged {text : String} {l c' : Context} {outcome : Except SqlError Packet}
      (hl : (s.opening c kind text).lock = .ok l)
      (hx : s.cleared.exchangeInCatalog l text (s.shape kind text) = (outcome, c')) :
      R c c'.unlock := by
    have he := (law.exchangeLaw s.cleared).exchange l text (s.shape kind text)
    rw [hx] at he
    exact law.trans (law.trans (law.trans (opening text) (law.lock hl)) he) (law.unlock c')
  have counted (d : Context) (elapsed : Nat) :
      R d (d.count s.setup.scope fun m ↦ m.addStatement kind elapsed) :=
    law.count d _ fun m ↦ by cases kind <;> rfl
  cases hx with
  | refused _ => exact law.refl c
  | lockedOut _ _ => exact opening _
  | failed _ hl hx =>
    exact law.trans
      (law.trans (exchanged hl hx) (law.count _ s.setup.scope (f := Metrics.addError) fun _ ↦ rfl))
      (law.log _ _)
  | rejected _ hl hx _ =>
    exact law.trans (law.trans (law.trans (exchanged hl hx) (counted _ _)) (law.release _ _))
      (law.undo _ _)
  | presented _ hl hx _ => exact law.trans (exchanged hl hx) (counted _ _)

/-- The entries of a batch keep the law. -/
theorem runEntries (law : Law R) (entries : List String) (s : Statement) (c : Context) :
    R c (s.runEntries c entries).context := by
  induction entries generalizing s c with
  | nil => exact law.refl c
  | cons sql rest ih =>
    have hfirst : R c (s.afterEntry (s.attempt c .update sql)) := by
      unfold Statement.afterEntry
      split
      · exact law.attempt s c .update sql
      · exact law.trans (law.attempt s c .update sql) (law.log _ _)
    rw [(s.runEntries_cons c sql rest).2]
    exact law.trans hfirst (ih _ _)

/-- What executes nothing keeps the law as well. -/
theorem quiet (law : Law R) : QuietLaw fun _ c _ c' ↦ R c c' := by
  refine .of_context law.refl law.trans law.noteAll fun v c ↦ ?_
  cases v with
  | maxFieldSize n => exact law.unlock c
  | maxRows n =>
    exact law.trans (law.connection c (k := c.connection.announceLimit) rfl) (law.unlock _)
  | _ => exact law.refl c

end Context.Law

namespace Context

/-- A connection that the application has given up stays so. -/
theorem held_law : Law fun c c' ↦ c'.held = true → c.held = true where
  refl _ h := h
  trans h₁ h₂ h := h₁ (h₂ h)
  note c e h := by
    unfold note at h
    dsimp only at h
    split at h
    · next f _ =>
      cases f with
      | poison => exact h
      | dropConnection => simp [undergo] at h
    · exact h
  locked _ _ h := h
  connection _ _ _ h := h
  count c scope _ _ h := by cases scope <;> exact h

/-- The rules of a connection are always the same. -/
theorem rules_law : Law fun c c' ↦ c'.connection.rules = c.connection.rules where
  refl _ := rfl
  trans h₁ h₂ := h₂.trans h₁
  note c e := by
    obtain ⟨_, _, h⟩ := c.note_eq e
    rw [h]
  locked _ _ := rfl
  connection _ _ h := h
  count c scope _ _ := by rw [connection_count]

/-- Only a batch starts and ends to hold the connection. -/
theorem borrowed_law : Law fun c c' ↦ c'.borrowed = c.borrowed where
  refl _ := rfl
  trans h₁ h₂ := h₂.trans h₁
  note c e := by
    obtain ⟨_, _, h⟩ := c.note_eq e
    rw [h]
  locked _ _ := rfl
  connection _ _ _ := rfl
  count c scope _ _ := by cases scope <;> rfl

/-- The number of failed batches in the metrics of a scope. -/
def failedBatches (c : Context) : Metrics.Scope → Nat
  | .session => c.metrics.batchFailures
  | .process => c.processMetrics.batchFailures

/-- Executions count no failed batch. -/
theorem failedBatches_law : Law fun c c' ↦ c'.failedBatches = c.failedBatches where
  refl _ := rfl
  trans h₁ h₂ := h₂.trans h₁
  note c e := by
    obtain ⟨_, _, h⟩ := c.note_eq e
    rw [h]
    rfl
  locked _ _ := rfl
  connection _ _ _ := rfl
  count c scope _ h := by
    funext scope'
    cases scope <;> cases scope' <;> simp [failedBatches, Context.count, h]

end Context

end SqlSession
