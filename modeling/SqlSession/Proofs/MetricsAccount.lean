import SqlSession.Proofs.BatchUpdates
import SqlSession.Proofs.ExchangeLaw
import SqlSession.Proofs.ExecutionLaw
import SqlSession.Proofs.Obtained
import SqlSession.Proofs.Setups
import SqlSession.Proofs.Surroundings

/-!
# The account of the metrics

The metrics that all statements of a session share account for what became of its executions: each
one that obtained a packet is counted once under its kind, each one that passed its checks and
obtained none is counted as an error, each row limit directive that the connection has a record of
is counted, and each batch that failed. Nothing else is counted.
-/

namespace SqlSession

/-- The command is a row limit directive. -/
def Dispatch.directs (d : Dispatch) : Bool := d.command.purpose == .limit

/-- The number of row limit directives among the records of the connection. -/
def Connection.directives (k : Connection) : Nat := k.dispatches.countP Dispatch.directs

namespace Metrics

/-- More row limit directives. -/
def addDirectives (m : Metrics) (n : Nat) : Metrics :=
  { m with limitDirectives := m.limitDirectives + n }

/-- The metrics without the count of failed batches. -/
def ofExecutions (m : Metrics) : Metrics := { m with batchFailures := 0 }

/-- Metrics start with no statement. -/
theorem statements_empty (kind : StatementKind) : ({} : Metrics).statements kind = 0 := by
  cases kind <;> rfl

theorem addDirectives_add (m : Metrics) (a b : Nat) :
    (m.addDirectives a).addDirectives b = m.addDirectives (a + b) := by
  simp [addDirectives, Nat.add_assoc]

/-- Without the count of failed batches and with it metrics are the same if both agree. -/
theorem eq_of_ofExecutions {m m' : Metrics} (h : m.ofExecutions = m'.ofExecutions)
    (hb : m.batchFailures = m'.batchFailures) : m = m' := by
  cases m
  cases m'
  simp_all [ofExecutions]

end Metrics

namespace Context

/-- The metrics of a scope. -/
def metricsOf (c : Context) : Metrics.Scope → Metrics
  | .session => c.metrics
  | .process => c.processMetrics

/-- Nothing but the metrics is looked at. -/
theorem metricsOf_congr {c c' : Context} (hs : c'.metrics = c.metrics)
    (hp : c'.processMetrics = c.processMetrics) (scope : Metrics.Scope) :
    c'.metricsOf scope = c.metricsOf scope := by
  cases scope with
  | session => exact hs
  | process => exact hp

theorem metricsOf_noteAll (c : Context) (es : List Event) (scope : Metrics.Scope) :
    (c.noteAll es).metricsOf scope = c.metricsOf scope := by
  obtain ⟨_, _, h⟩ := c.noteAll_eq es
  rw [h]
  exact metricsOf_congr rfl rfl scope

theorem metricsOf_log (c : Context) (rs : List Log.Record) (scope : Metrics.Scope) :
    (c.log rs).metricsOf scope = c.metricsOf scope :=
  c.metricsOf_noteAll _ scope

theorem metricsOf_count (c : Context) (scope : Metrics.Scope) (f : Metrics → Metrics) :
    (c.count scope f).metricsOf scope = f (c.metricsOf scope) := by
  cases scope <;> rfl

theorem failedBatches_eq (c : Context) (scope : Metrics.Scope) :
    c.failedBatches scope = (c.metricsOf scope).batchFailures := by
  cases scope <;> rfl

/-- From open surroundings on the metrics of the scope count the directives that the connection
records, and nothing else. -/
def Governed (scope : Metrics.Scope) (c c' : Context) : Prop :=
  c.connection.closed = false → c'.connection.closed = false ∧ ∃ n,
    c'.metricsOf scope = (c.metricsOf scope).addDirectives n ∧
      c'.connection.directives = c.connection.directives + n

/-- Steps that neither count nor send are governed. -/
theorem Governed.of_same {scope : Metrics.Scope} {c c' : Context}
    (hc : c'.connection.closed = c.connection.closed)
    (hm : c'.metricsOf scope = c.metricsOf scope)
    (hd : c'.connection.dispatches = c.connection.dispatches) : Governed scope c c' := by
  intro ho
  refine ⟨hc.trans ho, 0, hm, ?_⟩
  rw [Connection.directives, hd]
  rfl

/-- An open connection records a command, whatever it answers. -/
theorem directives_send {c : Context} (ho : c.connection.closed = false) (cmd : Command) :
    (c.send cmd).2.connection.closed = false ∧
      (c.send cmd).2.connection.directives =
        c.connection.directives + (cmd.purpose == .limit).toNat := by
  generalize hx : c.send cmd = x
  obtain ⟨outcome, c'⟩ := x
  obtain ⟨n, hn⟩ := (sends_send ho hx).connection
  dsimp only
  rw [hn]
  refine ⟨ho, ?_⟩
  rw [Connection.directives, Connection.took, List.countP_append, List.countP_singleton]
  cases h : cmd.purpose == .limit <;> simp [Dispatch.directs, Connection.directives, h]

end Context

namespace Statement

open Context

/-- An exchange counts each directive that it sends. -/
theorem governed_law (s : Statement) : s.ExchangeLaw (Governed s.setup.scope) where
  trans h h' ho := by
    obtain ⟨hd, n, hm, hn⟩ := h ho
    obtain ⟨he, k, hm', hk⟩ := h' hd
    exact ⟨he, n + k, by rw [hm', hm, Metrics.addDirectives_add], by rw [hk, hn, Nat.add_assoc]⟩
  events c es := .of_same (by rw [connection_noteAll]) (by rw [metricsOf_noteAll])
    (by rw [connection_noteAll])
  directive c d ho := by
    have hk : (s.announcing c d).connection = c.connection := by simp [announcing]
    have hm : (s.announcing c d).metricsOf s.setup.scope =
        (c.metricsOf s.setup.scope).addDirectives 1 := by
      rw [announcing, metricsOf_count, metricsOf_log]
      rfl
    obtain ⟨hclosed, hcount⟩ := directives_send (hk ▸ ho) (limitCommand d)
    rw [hk] at hcount
    exact ⟨hclosed, 1, hm, hcount⟩
  text c text cap f ho := by
    obtain ⟨hclosed, hcount⟩ := directives_send ho (command text cap f)
    exact ⟨hclosed, 0, rfl, hcount⟩
  select h := by
    rw [(Connection.selectCatalog_ok h).2]
    exact .of_same rfl rfl rfl

/-- A rollback behind a packet of the wrong sort counts nothing. -/
theorem metricsOf_undo (s : Statement) (c : Context) (scope : Metrics.Scope) :
    (s.undo c).metricsOf scope = c.metricsOf scope := by
  unfold undo
  split
  · rfl
  · split
    · exact c.metricsOf_log _ scope
    · next l hl =>
      rw [lock_ok hl]
      split
      · exact metricsOf_congr rfl rfl scope
      · dsimp only
        split
        · refine (metricsOf_congr rfl rfl scope).trans ((metricsOf_log _ _ scope).trans ?_)
          exact metricsOf_congr rfl rfl scope
        · exact metricsOf_congr rfl rfl scope

end Statement

namespace Execution

/-- The execution passed its checks and obtained no packet. -/
def unanswered (e : Execution) : Bool := e.refusal?.isNone && e.obtained?.isNone

/-- The metrics with what an execution counts besides its directive. -/
def charge (e : Execution) (m : Metrics) : Metrics :=
  if e.obtained?.isSome then m.addStatement e.kind e.after.connection.elapsed
  else if e.unanswered then m.addError else m

/-- Executions are of one of three kinds. -/
theorem countP_kinds (p : Execution → Bool) (es : List Execution) :
    es.countP p = (es.countP fun e ↦ e.kind == .execute && p e) +
      (es.countP fun e ↦ e.kind == .query && p e) + es.countP fun e ↦ e.kind == .update && p e := by
  induction es with
  | nil => rfl
  | cons e es ih =>
    simp only [List.countP_cons, ih]
    cases e.kind <;> simp <;> omega

/-- The exchange of an execution counts its directive. -/
theorem governed_of_exchange {e : Execution} {scope : Metrics.Scope} {text : String}
    {l c' : Context} {outcome : Except SqlError Packet} (hs : e.statement.setup.scope = scope)
    (hp : e.statement.prepare e.context e.kind e.sql = .ok text)
    (hl : (e.statement.opening e.context e.kind text).lock = .ok l)
    (hx : e.statement.cleared.exchangeInCatalog l text (e.statement.shape e.kind text) =
      (outcome, c')) :
    ∃ n, c'.metricsOf scope = (e.context.metricsOf scope).addDirectives n ∧
      c'.connection.directives = e.context.connection.directives + n := by
  have hbooks := Statement.connection_of_opening hl
  have hopening : (e.statement.opening e.context e.kind text).metricsOf scope =
      e.context.metricsOf scope := by
    rw [Statement.opening, Context.releaseSlot_eq, Context.releaseSlot_eq, Context.metricsOf_log,
      Context.metricsOf_noteAll, Context.metricsOf_noteAll]
  have hm : l.metricsOf scope = e.context.metricsOf scope := by
    rw [← hopening, Context.lock_ok hl]
    exact Context.metricsOf_congr rfl rfl scope
  have hgoverned := e.statement.cleared.governed_law.exchange l text (e.statement.shape e.kind text)
  have hscope : e.statement.cleared.setup.scope = scope := hs
  rw [hx, hscope] at hgoverned
  obtain ⟨-, n, hmetrics, hcount⟩ := hgoverned (hbooks ▸ Statement.open_of_prepare hp)
  rw [hm] at hmetrics
  rw [hbooks] at hcount
  exact ⟨n, hmetrics, hcount⟩

/-- An execution that leaves the mutex sound counts its directive, and what becomes of it. -/
theorem account_single {e : Execution} {scope : Metrics.Scope}
    (hs : e.statement.setup.scope = scope) (hp : e.after.poisoned = false) :
    ∃ n, e.after.metricsOf scope = e.charge ((e.context.metricsOf scope).addDirectives n) ∧
      e.after.connection.directives = e.context.connection.directives + n ∧
      (e.refusal?.isSome = true → e.after.metricsOf scope = e.context.metricsOf scope) := by
  have hx := e.statement.attempt_course e.context e.kind e.sql
  have hafter : e.after = (e.statement.attempt e.context e.kind e.sql).context := rfl
  generalize e.statement.attempt e.context e.kind e.sql = o at hx hafter
  cases hx with
  | refused h =>
    have hr : e.refusal? = some _ := Statement.prepare_error_iff.1 h
    have hnone : e.obtained? = none := obtained?_of_unsent (by rw [hafter])
    refine ⟨0, ?_, by rw [hafter]; rfl, fun _ ↦ by rw [hafter]⟩
    simp [charge, unanswered, hr, hnone, hafter, Metrics.addDirectives]
  | @lockedOut text _ _ hl =>
    rw [hafter] at hp
    rw [Context.lock, if_neg (Bool.eq_false_iff.1 hp)] at hl
    cases hl
  | @failed text l c' err h hl hx =>
    obtain ⟨n, hmetrics, hcount⟩ := governed_of_exchange hs h hl hx
    have hr := refusal?_of_prepare h
    have hnone : e.obtained? = none := (obtained?_of_exchange h hl hx
      ⟨c'.connection.rollbacks, by rw [hafter]; simp⟩).1
    refine ⟨n, ?_, by rw [hafter]; simpa using hcount, by simp [hr]⟩
    rw [hafter, Context.metricsOf_log, hs, Context.metricsOf_count, charge, unanswered, hnone, hr,
      ← hmetrics]
    rfl
  | @rejected text l c' p err h hl hx hm =>
    obtain ⟨n, hmetrics, hcount⟩ := governed_of_exchange hs h hl hx
    obtain ⟨r, hback⟩ := (e.statement.cleared.noting p).connection_reject
      (c'.unlock.count e.statement.setup.scope fun m ↦
        m.addStatement e.kind c'.connection.elapsed)
      (e.statement.adopt p)
    have hk : e.after.connection = { c'.connection with rollbacks := r } := by
      rw [hafter, hback, Context.connection_count, Context.connection_unlock]
    have hr := refusal?_of_prepare h
    have hsome : e.obtained? = some p := (obtained?_of_exchange h hl hx ⟨r, hk⟩).1
    have helapsed : e.after.connection.elapsed = c'.connection.elapsed := by
      rw [hk]
      rfl
    refine ⟨n, ?_, ?_, by simp [hr]⟩
    · rw [charge, helapsed, hafter, Statement.reject, Statement.metricsOf_undo, Context.release,
        Context.metricsOf_noteAll, hs, Context.metricsOf_count, hsome, ← hmetrics]
      rfl
    · rw [hk]
      exact hcount
  | @presented text l c' p h hl hx hm =>
    obtain ⟨n, hmetrics, hcount⟩ := governed_of_exchange hs h hl hx
    have hr := refusal?_of_prepare h
    have hsome : e.obtained? = some p := (obtained?_of_exchange h hl hx
      ⟨c'.connection.rollbacks, by rw [hafter]; simp⟩).1
    have helapsed : e.after.connection.elapsed = c'.connection.elapsed := by
      rw [hafter, Context.connection_count]
      rfl
    refine ⟨n, ?_, by rw [hafter]; simpa using hcount, by simp [hr]⟩
    rw [charge, helapsed, hafter, hs, Context.metricsOf_count, hsome, ← hmetrics]
    rfl

end Execution

namespace Context

/-- Nothing heals a poisoned mutex. -/
theorem poisoned_law : Law fun c c' ↦ c'.poisoned = false → c.poisoned = false where
  refl _ h := h
  trans h₁ h₂ h := h₁ (h₂ h)
  note c e h := by
    unfold note at h
    dsimp only at h
    split at h
    · next f _ =>
      cases f with
      | poison => exact (Bool.or_eq_false_iff.1 h).1
      | dropConnection => exact h
    · exact h
  locked _ _ h := h
  connection _ _ _ h := h
  count c scope _ _ h := by cases scope <;> exact h

/-- What the metrics of a scope account for behind executions. -/
structure Accounts (scope : Metrics.Scope) (c : Context) (es : List Execution) (c' : Context) :
    Prop where
  statements (kind : StatementKind) : (c'.metricsOf scope).statements kind =
    (c.metricsOf scope).statements kind +
      es.countP fun e ↦ e.kind == kind && e.obtained?.isSome
  latency : (c'.metricsOf scope).latency.count =
    (c.metricsOf scope).latency.count + es.countP fun e ↦ e.obtained?.isSome
  errors : (c'.metricsOf scope).errors =
    (c.metricsOf scope).errors + es.countP Execution.unanswered
  directives : (c'.metricsOf scope).limitDirectives + c.connection.directives =
    (c.metricsOf scope).limitDirectives + c'.connection.directives
  /-- Executions that are refused count nothing. -/
  refused : (∀ e ∈ es, e.refusal?.isSome = true) →
    (c'.metricsOf scope).ofExecutions = (c.metricsOf scope).ofExecutions

namespace Accounts

variable {scope : Metrics.Scope}

/-- Nothing is to be accounted for where metrics and directives are the same. -/
theorem of_same {c c' : Context}
    (hm : (c'.metricsOf scope).ofExecutions = (c.metricsOf scope).ofExecutions)
    (hd : c'.connection.directives = c.connection.directives) : c.Accounts scope [] c' where
  statements kind := by
    have h := congrArg (·.statements kind) hm
    cases kind <;> exact h
  latency := congrArg (·.latency.count) hm
  errors := congrArg (·.errors) hm
  directives := by
    have h : (c'.metricsOf scope).limitDirectives = (c.metricsOf scope).limitDirectives :=
      congrArg (·.limitDirectives) hm
    rw [h, hd]
  refused _ := hm

theorem append {c d e : Context} {es fs : List Execution} (h : c.Accounts scope es d)
    (h' : d.Accounts scope fs e) : c.Accounts scope (es ++ fs) e where
  statements kind := by
    rw [h'.statements, h.statements, List.countP_append, Nat.add_assoc]
  latency := by rw [h'.latency, h.latency, List.countP_append, Nat.add_assoc]
  errors := by rw [h'.errors, h.errors, List.countP_append, Nat.add_assoc]
  directives := by
    have hfirst := h.directives
    have hlast := h'.directives
    omega
  refused hr := (h'.refused fun x hx ↦ hr x (List.mem_append_right _ hx)).trans
    (h.refused fun x hx ↦ hr x (List.mem_append_left _ hx))

/-- An execution is accounted for. -/
theorem single {e : Execution} (hs : e.statement.setup.scope = scope)
    (hp : e.after.poisoned = false) : e.context.Accounts scope [e] e.after := by
  obtain ⟨n, hm, hd, hr⟩ := Execution.account_single hs hp
  have hnone (h : e.obtained?.isSome = true) : e.unanswered = false := by
    cases ho : e.obtained? with
    | none => simp [ho] at h
    | some p => simp [Execution.unanswered, ho]
  refine ⟨fun kind ↦ ?_, ?_, ?_, ?_, fun h ↦ by rw [hr (h e (by simp))]⟩
  · rw [hm, List.countP_singleton, Execution.charge]
    by_cases ho : e.obtained?.isSome = true
    · rw [if_pos ho, ho, Bool.and_true]
      cases e.kind <;> cases kind <;> rfl
    · rw [if_neg ho, Bool.eq_false_iff.2 ho, Bool.and_false]
      split <;> cases kind <;> rfl
  · rw [hm, List.countP_singleton, Execution.charge]
    by_cases ho : e.obtained?.isSome = true
    · rw [if_pos ho, if_pos ho]
      cases e.kind <;> rfl
    · rw [if_neg ho, if_neg ho]
      split <;> rfl
  · rw [hm, List.countP_singleton, Execution.charge]
    by_cases ho : e.obtained?.isSome = true
    · rw [if_pos ho, hnone ho]
      cases e.kind <;> rfl
    · rw [if_neg ho]
      split <;> rfl
  · rw [hm, hd]
    have hlimit : (e.charge ((e.context.metricsOf scope).addDirectives n)).limitDirectives =
        (e.context.metricsOf scope).limitDirectives + n := by
      unfold Execution.charge
      split
      · cases e.kind <;> rfl
      · split <;> rfl
    rw [hlimit]
    omega

/-- Over a mutex that stays sound the metrics of a scope account for the executions of statements
that count there. -/
theorem executionLaw (scope : Metrics.Scope) : ExecutionLaw fun c es c' ↦
    (∀ e ∈ es, e.statement.setup.scope = scope) → c'.poisoned = false →
      c.poisoned = false ∧ c.Accounts scope es c' where
  append h h' hs hp := by
    obtain ⟨hp', hlast⟩ := h' (fun e he ↦ hs e (List.mem_append_right _ he)) hp
    obtain ⟨hp'', hfirst⟩ := h (fun e he ↦ hs e (List.mem_append_left _ he)) hp'
    exact ⟨hp'', hfirst.append hlast⟩
  single e hs hp :=
    ⟨poisoned_law.attempt e.statement e.context e.kind e.sql hp, .single (hs e (by simp)) hp⟩
  events c es _ hp :=
    ⟨poisoned_law.noteAll c es hp,
      .of_same (by rw [metricsOf_noteAll]) (by rw [connection_noteAll])⟩
  settle v c _ hp := by
    cases v <;> exact ⟨hp, .of_same (by cases scope <;> rfl) rfl⟩
  borrow c _ _ hp := ⟨hp, .of_same (by cases scope <;> rfl) rfl⟩
  failedBatch c other _ hp := by
    cases other <;> exact ⟨hp, .of_same (by cases scope <;> rfl) rfl⟩
  undergo c f _ hp := by
    cases f with
    | poison => exact ⟨(Bool.or_eq_false_iff.1 hp).1, .of_same (by cases scope <;> rfl) rfl⟩
    | dropConnection => exact ⟨hp, .of_same (by cases scope <;> rfl) rfl⟩

end Accounts

end Context

/-- A statement that is made counts in the scope, and the application sends no row limit directive
itself. -/
def Operation.CountsIn (scope : Metrics.Scope) : Operation → Prop
  | .make _ setup => setup.scope = scope
  | .connection (.execute cmd) => cmd.purpose ≠ .limit
  | _ => True

theorem Operation.CountsIn.makesWith {scope : Metrics.Scope} {op : Operation}
    (h : op.CountsIn scope) : op.MakesWith fun setup ↦ setup.scope = scope := by
  cases op with
  | make _ _ => exact h
  | _ => trivial

namespace Session

open Context

/-- The operation is a batch that fails with some of its entries. -/
def failsBatch (s : Session) : Operation → Bool
  | .call place .runBatch =>
    match (s.step (.call place .runBatch)).1 with
    | .error (.batchFailure ..) => true
    | _ => false
  | _ => false

/-- The number of batches of a run that fail. -/
def failedBatches (s : Session) : List Operation → Nat
  | [] => 0
  | op :: rest => (s.failsBatch op).toNat + (s.step op).2.failedBatches rest

/-- All statements of the session count in the scope. -/
def CountsIn (scope : Metrics.Scope) (s : Session) : Prop :=
  ∀ t, some t ∈ s.statements → t.setup.scope = scope

/-- No operation lets a statement count elsewhere. -/
theorem countsIn_step {scope : Metrics.Scope} {s : Session} {op : Operation}
    (hop : op.CountsIn scope) (hs : s.CountsIn scope) : (s.step op).2.CountsIn scope :=
  allSetUp_step hop.makesWith hs

/-- All executions of a run count in the scope. -/
theorem countsIn_executions {scope : Metrics.Scope} {s : Session} {ops : List Operation}
    (hops : ∀ op ∈ ops, op.CountsIn scope) (hs : s.CountsIn scope) :
    ∀ e ∈ s.executions ops, e.statement.setup.scope = scope :=
  setup_executions (fun op ho ↦ (hops op ho).makesWith) hs

/-- A call beside the statements that sends no row limit directive has nothing to account for. -/
theorem accounts_connectionCall {scope : Metrics.Scope} {call : ConnectionCall}
    (hc : (Operation.connection call).CountsIn scope) (c : Context) :
    c.Accounts scope [] (connectionCall c call).2 := by
  have same {k : Connection} (hk : k.dispatches = c.connection.dispatches) :
      c.Accounts scope [] { c with connection := k } :=
    .of_same (by cases scope <;> rfl) (by rw [Connection.directives, hk]; rfl)
  cases call with
  | setReadOnly on => exact same rfl
  | setAutoCommit on => exact same rfl
  | setClosed on => exact same rfl
  | announceLimit => exact same rfl
  | rollback =>
    unfold connectionCall
    dsimp only
    split <;> exact same rfl
  | selectCatalog name =>
    unfold connectionCall
    dsimp only
    split
    · next k hk => exact same (by rw [(Connection.selectCatalog_ok hk).2])
    · exact same rfl
  | execute cmd =>
    refine .of_same (by cases scope <;> rfl) ?_
    cases ho : c.connection.closed with
    | false =>
      have hd := (directives_send ho cmd).2
      rw [beq_eq_false_iff_ne.2 hc] at hd
      exact hd
    | true =>
      change (c.connection.send cmd).2.directives = _
      rw [Connection.send, if_pos ho]

/-- A batch counts once if it fails. -/
theorem failedBatches_runBatch (s : Session) {place : Nat} {t : Statement}
    (ht : s.statement? place = some t) :
    (t.runBatch s.context).context.failedBatches t.setup.scope =
      s.context.failedBatches t.setup.scope + (s.failsBatch (.call place .runBatch)).toNat := by
  have hanswer : (s.step (.call place .runBatch)).1 =
      (t.runBatch s.context).result.map .counts := by
    rw [step_call_eq ht]
    rfl
  unfold failsBatch
  dsimp only
  rw [hanswer, Statement.runBatch_eq]
  cases hr : t.batchRefusal? s.context with
  | some e =>
    unfold Statement.batchRefusal? at hr
    -- no refusal is the failure of a batch
    split at hr
    · cases hr; rfl
    split at hr
    · cases hr; rfl
    split at hr
    · cases hr; rfl
    split at hr
    · cases hr; rfl
    · cases hr
  | none =>
    have hentries := failedBatches_law.runEntries t.queue { t with queue := [] }
      { s.context with borrowed := true }
    have hlog (c : Context) (rs : List Log.Record) :
        ({ c with borrowed := false }.log rs).failedBatches = c.failedBatches :=
      failedBatches_law.log { c with borrowed := false } rs
    dsimp only
    split
    · rw [hlog, hentries]
      rfl
    · have hcount (c : Context) (scope : Metrics.Scope) :
          (c.count scope Metrics.addFailedBatch).failedBatches scope =
            c.failedBatches scope + 1 := by cases scope <;> rfl
      rw [hcount, hlog, hentries]
      rfl

/-- Only batches count a failed batch. -/
theorem failedBatches_step {scope : Metrics.Scope} {s : Session} (hs : s.CountsIn scope)
    (op : Operation) : (s.step op).2.context.failedBatches scope =
      s.context.failedBatches scope + (s.failsBatch op).toNat := by
  have hquiet := failedBatches_law.quiet
  have hstep := s.step_stepped op
  cases op with
  | call place call =>
    cases ht : s.statement? place with
    | none =>
      have hnone (call : Call) : s.step (.call place call) = (.ok .noStatement, s) := by
        rw [step, ht]
      rw [hnone]
      cases call with
      | runBatch => rw [failsBatch, hnone]; rfl
      | _ => rfl
    | some t =>
      have hscope : t.setup.scope = scope := hs t (List.mem_of_getElem? (statement?_eq_some.1 ht))
      rw [step_call_eq ht]
      dsimp only
      cases hone : call.single? with
      | some ks =>
        obtain ⟨f, hf⟩ := Statement.perform_single (s := t) (c := s.context) hone
        have hkept := failedBatches_law.attempt t s.context ks.1 ks.2
        have hno : s.failsBatch (.call place call) = false := by
          cases call with
          | runBatch => simp [Call.single?] at hone
          | _ => rfl
        rw [hf, hno]
        exact congrFun hkept scope
      | none =>
        cases hq : call.quiet with
        | true =>
          have hno : s.failsBatch (.call place call) = false := by
            cases call with
            | runBatch => simp [Call.quiet] at hq
            | _ => rfl
          rw [hno]
          exact congrFun (hquiet.perform hq t s.context) scope
        | false =>
          rw [Call.eq_runBatch hone hq, ← hscope]
          exact s.failedBatches_runBatch ht
  | make origin setup =>
    generalize (s.step (.make origin setup)).2 = s' at hstep ⊢
    cases hstep with
    | idle => rfl
    | made _ _ _ hf => exact congrFun (hquiet.runSetters hf _ s.context) scope
    | unmade _ _ _ hf =>
      exact congrFun ((hquiet.close _ _).trans (hquiet.runSetters hf _ s.context)) scope
    | underwent _ f => cases f <;> rfl
  | drop place =>
    generalize (s.step (.drop place)).2 = s' at hstep ⊢
    cases hstep with
    | idle => rfl
    | dropped _ => exact congrFun (hquiet.close _ s.context) scope
    | underwent _ f => cases f <;> rfl
  | connection call =>
    unfold step
    dsimp only
    split
    · unfold connectionCall
      cases call <;> dsimp only <;> (try split) <;> rfl
    · rfl
  | poison => rfl
  | dropConnection => rfl

/-- Operations count as many failed batches as fail. -/
theorem failedBatches_run {scope : Metrics.Scope} {ops : List Operation}
    (hops : ∀ op ∈ ops, op.CountsIn scope) {s : Session} (hs : s.CountsIn scope) :
    (s.run ops).context.failedBatches scope =
      s.context.failedBatches scope + s.failedBatches ops := by
  induction ops generalizing s with
  | nil => rfl
  | cons op rest ih =>
    rw [run, List.foldl_cons, ← run,
      ih (fun o ho ↦ hops o (by simp [ho])) (countsIn_step (hops op (by simp)) hs),
      failedBatches_step hs, failedBatches, Nat.add_assoc]

/-- A run that leaves the mutex sound found it sound, and its executions are accounted for. -/
theorem accounts_run {scope : Metrics.Scope} {s : Session} {ops : List Operation}
    (hops : ∀ op ∈ ops, op.CountsIn scope) (hs : s.CountsIn scope)
    (hp : (s.run ops).context.poisoned = false) :
    s.context.poisoned = false ∧
      s.context.Accounts scope (s.executions ops) (s.run ops).context := by
  -- the calls beside the statements leave the mutex as it is
  have hbeside (op : Operation) (hop : op ∈ ops) (call : ConnectionCall)
      (hcall : op = .connection call) (c : Context) :
      (∀ e ∈ ([] : List Execution), e.statement.setup.scope = scope) →
        (connectionCall c call).2.poisoned = false →
          c.poisoned = false ∧ c.Accounts scope [] (connectionCall c call).2 := by
    intro _ hsound
    refine ⟨?_, accounts_connectionCall (hcall ▸ hops op hop) c⟩
    unfold connectionCall at hsound
    cases call <;> dsimp only at hsound <;> (try split at hsound) <;> exact hsound
  exact (Accounts.executionLaw scope).run hbeside s (countsIn_executions hops hs) hp

/-- What the metrics of a scope account for in a run of a session. -/
structure MetricsAccount (scope : Metrics.Scope) (s : Session) (ops : List Operation)
    (m : Metrics) : Prop where
  /-- Each statement that is counted is counted under its kind. -/
  total : m.latency.count = m.executes + m.queries + m.updates
  /-- A statement is counted for each packet that an execution obtains. -/
  obtained : m.latency.count = (s.executions ops).countP fun e ↦ e.obtained?.isSome
  kinds (kind : StatementKind) : m.statements kind =
    (s.executions ops).countP fun e ↦ e.kind == kind && e.obtained?.isSome
  /-- An error is counted for each execution that passes its checks and obtains none. -/
  errors : m.errors = (s.executions ops).countP Execution.unanswered
  directives : s.context.connection.directives + m.limitDirectives =
    (s.run ops).context.connection.directives
  batchFailures : m.batchFailures = s.failedBatches ops
  /-- An operation whose executions are all refused counts nothing, unless it is a batch that
  fails. -/
  refused {before after : List Operation} {op : Operation} (h : ops = before ++ op :: after)
    (hr : ∀ e ∈ (s.run before).executionsOf op, e.refusal?.isSome = true)
    (hb : (s.run before).failsBatch op = false) :
    (s.run (before ++ [op])).context.metricsOf scope = (s.run before).context.metricsOf scope

/-- An operation whose executions are all refused leaves the metrics alone, unless it is a batch
that fails. -/
theorem refused_step {scope : Metrics.Scope} {s : Session} {before after : List Operation}
    {op : Operation} (hops : ∀ o ∈ before ++ op :: after, o.CountsIn scope)
    (hs : s.CountsIn scope) (hp : (s.run (before ++ op :: after)).context.poisoned = false)
    (hr : ∀ e ∈ (s.run before).executionsOf op, e.refusal?.isSome = true)
    (hb : (s.run before).failsBatch op = false) :
    (s.run (before ++ [op])).context.metricsOf scope = (s.run before).context.metricsOf scope := by
  have hbefore : (s.run before).CountsIn scope :=
    run_induction (fun u o ho ↦ countsIn_step (hops o (by simp [ho]))) hs
  have hone : s.run (before ++ [op]) = ((s.run before).step op).2 := by
    rw [run, List.foldl_append]
    rfl
  have hrest : s.run (before ++ op :: after) = ((s.run before).step op).2.run after := by
    rw [run, List.foldl_append]
    rfl
  rw [hrest] at hp
  have hsound := (accounts_run (fun o ho ↦ hops o (by simp [ho]))
    (countsIn_step (hops op (by simp)) hbefore) hp).1
  have haccounts := (@accounts_run scope (s.run before) [op]
    (fun o ho ↦ hops o (by simp [List.mem_singleton.1 ho])) hbefore hsound).2
  have hbatches := failedBatches_step hbefore op
  rw [hb, failedBatches_eq, failedBatches_eq] at hbatches
  rw [hone]
  refine Metrics.eq_of_ofExecutions (haccounts.refused fun e he ↦ hr e ?_) hbatches
  rwa [executions, executions, List.append_nil] at he

/-- Where all statements of a session count in one scope and the mutex stays sound, the metrics of
the scope account for every execution, every row limit directive and every failed batch. -/
theorem metrics_account {scope : Metrics.Scope} {connection : Connection} {ops : List Operation}
    (hops : ∀ op ∈ ops, op.CountsIn scope)
    (hp : ((start connection).run ops).context.poisoned = false) :
    (start connection).MetricsAccount scope ops
      (((start connection).run ops).context.metricsOf scope) := by
  have hs : (start connection).CountsIn scope := by
    intro t ht
    simp [start] at ht
  have hfresh : (start connection).context.metricsOf scope = {} := by cases scope <;> rfl
  obtain ⟨-, hall⟩ := accounts_run hops hs hp
  have hobtained := hall.latency
  have hkinds := hall.statements
  have herrors := hall.errors
  have hdirectives := hall.directives
  have hbatches := failedBatches_run hops hs
  rw [failedBatches_eq, failedBatches_eq] at hbatches
  rw [hfresh] at hobtained herrors hdirectives hbatches
  simp only [hfresh] at hkinds
  have hall' : ∀ kind, (((start connection).run ops).context.metricsOf scope).statements kind =
      ((start connection).executions ops).countP fun e ↦ e.kind == kind && e.obtained?.isSome := by
    intro kind
    rw [hkinds, Metrics.statements_empty, Nat.zero_add]
  rw [Nat.zero_add] at hobtained herrors
  refine ⟨?_, hobtained, hall', herrors, ?_, ?_, ?_⟩
  · rw [hobtained, Execution.countP_kinds, ← hall', ← hall', ← hall']
    rfl
  · simpa [Nat.add_comm] using hdirectives
  · simpa [start] using hbatches
  · rintro before after op rfl hr hb
    exact refused_step hops hs hp hr hb

/-- Three statements: a packet of the wrong sort counts as a statement, a catalog that cannot be
selected and an entry of a batch as errors, and an empty text as nothing. -/
theorem metrics_account_failures :
    let k : Connection :=
      { catalog := "main", missingCatalog := some "gone",
        rules := [⟨"missing", fun _ ↦ .error (Connection.unknownCatalog "x")⟩] }
    let ops : List Operation :=
      [.make .plain {}, .make (.catalog "other") {}, .make (.catalog "gone") {},
        .call 0 (.set (.maxRows 5)), .call 0 (.query "SELECT 1"), .call 1 (.query "SELECT 2"),
        .call 0 (.query "INSERT"), .call 2 (.query "SELECT 3"),
        .call 0 (.enqueue "UPDATE missing"), .call 0 (.enqueue "UPDATE t"), .call 0 .runBatch,
        .call 0 (.query "")]
    let m := ((start k).run ops).context.metrics
    (∀ op ∈ ops, op.CountsIn .session) ∧ ((start k).run ops).context.poisoned = false ∧
      m.latency.count = 4 ∧ (m.executes, m.queries, m.updates) = (0, 3, 1) ∧ m.errors = 2 ∧
      m.limitDirectives = 5 ∧ m.batchFailures = 1 ∧ (start k).MetricsAccount .session ops m := by
  intro k ops m
  have hops : ∀ op ∈ ops, op.CountsIn .session := by simp [ops, Operation.CountsIn]
  have hp : ((start k).run ops).context.poisoned = false := by decide +kernel
  have hm : m.latency.count = 4 ∧ (m.executes, m.queries, m.updates) = (0, 3, 1) ∧ m.errors = 2 ∧
      m.limitDirectives = 5 ∧ m.batchFailures = 1 := by decide +kernel
  obtain ⟨hlatency, hkinds, herrors, hdirectives, hbatches⟩ := hm
  exact ⟨hops, hp, hlatency, hkinds, herrors, hdirectives, hbatches, metrics_account hops hp⟩

end Session

end SqlSession
