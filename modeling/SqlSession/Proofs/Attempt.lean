import SqlSession.Proofs.Context
import SqlSession.Statement.Batch

/-!
# The course of an execution

The ways to execute a text differ in the packets they accept and in what they give back.
`attempt` is what they share, and `Course` lists all that an attempt can come to.
-/

namespace SqlSession

namespace Outcome

/-- The outcome with another value. -/
def map {α β : Type} (o : Outcome α) (f : α → β) : Outcome β :=
  ⟨o.result.map f, o.statement, o.context⟩

end Outcome

/-- The error of a packet that the kind of execution does not accept. -/
def StatementKind.mismatch? : StatementKind → Packet → Option SqlError
  | execute, _ => none
  | query, p => if p.head.hasRows then none else some .notAQuery
  | update, p => if p.head.hasRows then some .expectedUpdateGotRows else none

namespace Statement

/-- The statement without results in its slots and without warnings. -/
def cleared (s : Statement) : Statement :=
  { s with warnings := [], current := none, pending := none }

/-- The statement with the key and the warnings of a packet. -/
def noting (s : Statement) (p : Packet) : Statement :=
  { s with lastKey := p.head.generatedKey, warnings := p.head.warnings }

/-- The packet as the statement takes it over. -/
def adopt (s : Statement) (p : Packet) : Packet := (p.bind s.binding).withoutWarnings

/-- The statement with the first response of a packet current and the rest pending. -/
def present (s : Statement) (p : Packet) : Statement :=
  { s with current := some p.withoutNext, pending := p.next?.map fun q ↦ q.bind s.binding }

/-- The surroundings in which an execution sends its text: the results of the one before are
closed and the text is logged. -/
def opening (s : Statement) (c : Context) (kind : StatementKind) (text : String) : Context :=
  ((c.releaseSlot s.current).releaseSlot s.pending).log
    (s.setup.logger.statement .debug text (s.metadata kind))

/-- The text is sent over the connection at hand. -/
theorem connection_of_opening {s : Statement} {c l : Context} {kind : StatementKind}
    {text : String} (h : (s.opening c kind text).lock = .ok l) : l.connection = c.connection := by
  rw [Context.connection_lock h]
  simp [opening]

/-- One execution of any kind; it gives the packet that it obtained. -/
def attempt (s : Statement) (c : Context) (kind : StatementKind) (sql : String) :
    Outcome Packet :=
  match s.obtain c kind sql with
  | ⟨.error e, s, c⟩ => ⟨.error e, s, c⟩
  | ⟨.ok p, s, c⟩ =>
    match kind.mismatch? p with
    | some e => ⟨.error e, s, s.reject c p⟩
    | none => ⟨.ok p, s.present p, c⟩

/-- What an execution can come to. -/
inductive Course (s : Statement) (c : Context) (kind : StatementKind) (sql : String) :
    Outcome Packet → Prop
  /-- The checks refuse it, and nothing changes. -/
  | refused {e : SqlError} (h : s.prepare c kind sql = .error e) :
    Course s c kind sql ⟨.error e, s, c⟩
  /-- The mutex of the connection cannot be taken once the results are closed. -/
  | lockedOut {text : String} {e : SqlError} (h : s.prepare c kind sql = .ok text)
      (hl : (s.opening c kind text).lock = .error e) :
    Course s c kind sql ⟨.error e, s.cleared, s.opening c kind text⟩
  /-- The exchange with the connection gives no packet. -/
  | failed {text : String} {l c' : Context} {e : SqlError} (h : s.prepare c kind sql = .ok text)
      (hl : (s.opening c kind text).lock = .ok l)
      (hx : s.cleared.exchangeInCatalog l text (s.shape kind text) = (.error e, c')) :
    Course s c kind sql
      ⟨.error e, s.cleared, (c'.unlock.count s.setup.scope Metrics.addError).log
        (s.setup.logger.failure e.display (s.metadata kind))⟩
  /-- The packet is of the wrong sort. -/
  | rejected {text : String} {l c' : Context} {p : Packet} {e : SqlError}
      (h : s.prepare c kind sql = .ok text) (hl : (s.opening c kind text).lock = .ok l)
      (hx : s.cleared.exchangeInCatalog l text (s.shape kind text) = (.ok p, c'))
      (hm : kind.mismatch? (s.adopt p) = some e) :
    Course s c kind sql
      ⟨.error e, s.cleared.noting p,
        (s.cleared.noting p).reject
          (c'.unlock.count s.setup.scope fun m ↦ m.addStatement kind c'.connection.elapsed)
          (s.adopt p)⟩
  /-- The packet goes into the slots. -/
  | presented {text : String} {l c' : Context} {p : Packet}
      (h : s.prepare c kind sql = .ok text) (hl : (s.opening c kind text).lock = .ok l)
      (hx : s.cleared.exchangeInCatalog l text (s.shape kind text) = (.ok p, c'))
      (hm : kind.mismatch? (s.adopt p) = none) :
    Course s c kind sql
      ⟨.ok (s.adopt p), (s.cleared.noting p).present (s.adopt p),
        c'.unlock.count s.setup.scope fun m ↦ m.addStatement kind c'.connection.elapsed⟩

/-- A statement that can be used is open, and its connection is there. -/
theorem usable_ok {s : Statement} {c : Context} (h : s.usable c = .ok ()) :
    s.closed = false ∧ s.attached = true ∧ c.alive = true := by
  unfold usable at h
  split at h
  · simp at h
  · next hc =>
    split at h
    · next ha =>
      have ha' := Bool.and_eq_true_iff.1 ha
      exact ⟨by simpa using hc, ha'.1, ha'.2⟩
    · simp at h

/-- The checks of an execution pass only for a statement that can be used. -/
theorem usable_of_prepare {s : Statement} {c : Context} {kind : StatementKind}
    {sql text : String} (h : s.prepare c kind sql = .ok text) : s.usable c = .ok () := by
  unfold prepare at h
  cases hu : s.usable c with
  | ok u => rfl
  | error e => simp [hu, Except.bind] at h

/-- The text to send is the given one with its escape clauses expanded. -/
theorem expanded_of_prepare {s : Statement} {c : Context} {kind : StatementKind}
    {sql text : String} (h : s.prepare c kind sql = .ok text) : s.expanded sql = .ok text := by
  unfold prepare at h
  rw [usable_of_prepare h, Except.bind] at h
  split at h
  · simp at h
  · cases ha : checkAccess c kind sql with
    | error e => simp [ha, Except.bind] at h
    | ok u => simpa [ha, Except.bind] using h

/-- The checks of an execution pass only over a connection that is open and takes statements of the
kind. -/
theorem access_of_prepare {s : Statement} {c : Context} {kind : StatementKind}
    {sql text : String} (h : s.prepare c kind sql = .ok text) :
    c.connection.closed = false ∧
      (c.connection.readOnly = true → kind.allowedReadOnly sql = true) := by
  have ha : checkAccess c kind sql = .ok () := by
    unfold prepare at h
    rw [usable_of_prepare h, Except.bind] at h
    split at h
    · simp at h
    · cases ha : checkAccess c kind sql with
      | error e => simp [ha, Except.bind] at h
      | ok u => rfl
  unfold checkAccess at ha
  cases hl : c.lock with
  | error e => simp [hl, Except.bind] at ha
  | ok l =>
    rw [hl, Except.bind, Context.connection_lock hl] at ha
    split at ha
    · simp at ha
    · next hc =>
      split at ha
      · simp at ha
      · next hr =>
        refine ⟨by simpa using hc, fun hro ↦ ?_⟩
        simpa [hro] using hr

theorem open_of_prepare {s : Statement} {c : Context} {kind : StatementKind}
    {sql text : String} (h : s.prepare c kind sql = .ok text) : c.connection.closed = false :=
  (access_of_prepare h).1

/-- Up to its packet an execution checks, closes the results at hand, and sends its text under
the mutex. -/
theorem obtain_eq (s : Statement) (c : Context) (kind : StatementKind) (sql : String) :
    s.obtain c kind sql =
      match s.prepare c kind sql with
      | .error e => ⟨.error e, s, c⟩
      | .ok text =>
        match (s.opening c kind text).lock with
        | .error e => ⟨.error e, s.cleared, s.opening c kind text⟩
        | .ok l =>
          let x := s.cleared.exchangeInCatalog l text (s.shape kind text)
          s.cleared.settle x.2.unlock kind x.2.connection.elapsed x.1 := rfl

/-- What an execution makes of its exchange with the connection: an error is counted and logged, and
a packet goes into the slots or is rejected. -/
def conclude (s : Statement) (kind : StatementKind) :
    Except SqlError Packet × Context → Outcome Packet
  | (.error e, c) =>
    ⟨.error e, s.cleared, (c.unlock.count s.setup.scope Metrics.addError).log
      (s.setup.logger.failure e.display (s.metadata kind))⟩
  | (.ok p, c) =>
    let c := c.unlock.count s.setup.scope fun m ↦ m.addStatement kind c.connection.elapsed
    match kind.mismatch? (s.adopt p) with
    | some e => ⟨.error e, s.cleared.noting p, (s.cleared.noting p).reject c (s.adopt p)⟩
    | none => ⟨.ok (s.adopt p), (s.cleared.noting p).present (s.adopt p), c⟩

/-- An execution checks, closes the results at hand, and sends its text under the mutex. -/
theorem attempt_eq (s : Statement) (c : Context) (kind : StatementKind) (sql : String) :
    s.attempt c kind sql =
      match s.prepare c kind sql with
      | .error e => ⟨.error e, s, c⟩
      | .ok text =>
        match (s.opening c kind text).lock with
        | .error e => ⟨.error e, s.cleared, s.opening c kind text⟩
        | .ok l => s.conclude kind (s.cleared.exchangeInCatalog l text (s.shape kind text)) := by
  rw [attempt, obtain_eq]
  cases s.prepare c kind sql with
  | error e => rfl
  | ok text =>
    dsimp only
    cases (s.opening c kind text).lock with
    | error e => rfl
    | ok l =>
      dsimp only
      generalize s.cleared.exchangeInCatalog l text (s.shape kind text) = x
      obtain ⟨outcome, c'⟩ := x
      cases outcome with
      | error e => rfl
      | ok p => rfl

/-- Every execution takes one of the listed courses. -/
theorem attempt_course (s : Statement) (c : Context) (kind : StatementKind) (sql : String) :
    Course s c kind sql (s.attempt c kind sql) := by
  rw [attempt_eq]
  cases h : s.prepare c kind sql with
  | error e => exact .refused h
  | ok text =>
    dsimp only
    cases hl : (s.opening c kind text).lock with
    | error e => exact .lockedOut h hl
    | ok l =>
      dsimp only
      generalize hx : s.cleared.exchangeInCatalog l text (s.shape kind text) = x
      obtain ⟨outcome, c'⟩ := x
      cases outcome with
      | error e => exact .failed h hl hx
      | ok p =>
        unfold conclude
        dsimp only
        cases hm : kind.mismatch? (s.adopt p) with
        | some e => exact .rejected h hl hx hm
        | none => exact .presented h hl hx hm

/-- An execution changes no setting. -/
theorem settings_attempt (s : Statement) (c : Context) (kind : StatementKind) (sql : String) :
    (s.attempt c kind sql).statement.settings = s.settings := by
  have hx := s.attempt_course c kind sql
  generalize s.attempt c kind sql = o at hx ⊢
  cases hx <;> rfl

/-- An execution that has its packet has empty result slots. -/
theorem slots_of_obtain {s s' : Statement} {c c' : Context} {kind : StatementKind}
    {sql : String} {p : Packet} (h : s.obtain c kind sql = ⟨.ok p, s', c'⟩) :
    s'.current = none ∧ s'.pending = none := by
  rw [obtain_eq] at h
  split at h
  · simp at h
  · split at h
    · simp at h
    · next l _ =>
      generalize s.cleared.exchangeInCatalog l _ _ = x at h
      obtain ⟨outcome, d⟩ := x
      cases outcome with
      | error e => simp [settle] at h
      | ok q =>
        simp only [settle, Outcome.mk.injEq] at h
        rw [← h.2.1]
        exact ⟨rfl, rfl⟩

/-- Into empty slots a packet goes without closing anything. -/
theorem install_of_empty {s : Statement} (hc : s.current = none) (hp : s.pending = none)
    (c : Context) (p : Packet) : s.install c p = (s.present p, c) := by
  simp [install, emptyCurrent, holdNext, present, binding, hc, hp, Context.releaseSlot]

/-- Stepping forward from a packet that waits presents it. -/
theorem stepForward_of_pending (s : Statement) (c : Context) (p : Packet) :
    { s with pending := some p }.stepForward c = (s.present p, c) := rfl

/-- Executing any text is an attempt that tells whether there are rows. -/
theorem execute_eq (s : Statement) (c : Context) (sql : String) :
    s.execute c sql = (s.attempt c .execute sql).map fun p ↦ p.head.hasRows := by
  rw [execute, attempt]
  generalize ho : s.obtain c .execute sql = o
  obtain ⟨result, s', c'⟩ := o
  cases result with
  | error e => rfl
  | ok p =>
    obtain ⟨hc, hp⟩ := slots_of_obtain ho
    simp [install_of_empty hc hp, StatementKind.mismatch?, Outcome.map, Except.map]

/-- Executing a query is an attempt that gives the first result. -/
theorem query_eq (s : Statement) (c : Context) (sql : String) :
    s.query c sql = (s.attempt c .query sql).map Packet.withoutNext := by
  rw [query, attempt]
  generalize s.obtain c .query sql = o
  obtain ⟨result, s', c'⟩ := o
  cases result with
  | error e => rfl
  | ok p =>
    cases h : p.head.hasRows <;>
      simp [stepForward_of_pending, StatementKind.mismatch?, Outcome.map, Except.map, h]

/-- Executing an update is an attempt that gives the update count. -/
theorem largeUpdate_eq (s : Statement) (c : Context) (sql : String) :
    s.largeUpdate c sql = (s.attempt c .update sql).map fun p ↦ p.head.updateCount := by
  rw [largeUpdate, attempt]
  generalize ho : s.obtain c .update sql = o
  obtain ⟨result, s', c'⟩ := o
  cases result with
  | error e => rfl
  | ok p =>
    obtain ⟨hc, hp⟩ := slots_of_obtain ho
    cases h : p.head.hasRows <;>
      simp [install_of_empty hc hp, StatementKind.mismatch?, Outcome.map, Except.map, h]

/-- Executing an update for a 32-bit count is an attempt that narrows its count. -/
theorem update_eq (s : Statement) (c : Context) (sql : String) :
    s.update c sql =
      (s.attempt c .update sql).map fun p ↦ narrowCount p.head.updateCount := by
  rw [update, largeUpdate_eq]
  cases h : (s.attempt c .update sql).result <;> simp [Outcome.map, Except.map, h]

end Statement

end SqlSession
