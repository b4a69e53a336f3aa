import SqlSession.Proofs.MutedCalls
import SqlSession.Proofs.SessionSteps

/-!
# Failures that nobody waits for

Hooks fail while results are closed on the way, and rollbacks fail behind packets of the wrong sort.
Two sessions whose connections differ in nothing else run through the same states and give the same
answers. Only the log tells them apart, and the answer to a caller that closes a result or rolls
back by itself.
-/

namespace SqlSession

/-- The operation hands its caller the outcome of a hook or of a rollback. -/
def Operation.reportsFailure : Operation → Bool
  | .call _ (.serve .close) => true
  | .connection .rollback => true
  | _ => false

namespace Context

theorem muted_released (c : Context) : c.muted.released = c.released.map Hook.muted := by
  have hentry (e : Entry) :
      (e.muted?.bind fun f ↦ f.event.hook?) = e.event.hook?.map Hook.muted := by
    obtain ⟨event, locked⟩ := e
    cases event <;> rfl
  unfold released muted
  dsimp only
  rw [List.filterMap_filterMap, List.map_filterMap]
  exact congrArg (List.filterMap · c.journal) (funext hentry)

/-- The connection does the same for the application, which alone learns that a rollback failed. -/
theorem muted_connectionCall (c : Context) (call : ConnectionCall) :
    (Session.connectionCall c.muted call).2 = (Session.connectionCall c call).2.muted ∧
      (call ≠ .rollback →
        (Session.connectionCall c.muted call).1 =
          (Session.connectionCall c call).1.map Answer.muted) := by
  cases call with
  | selectCatalog name =>
    simp only [Session.connectionCall]
    rw [show c.muted.connection = c.connection.muted from rfl, Connection.muted_selectCatalog]
    cases c.connection.selectCatalog name <;> exact ⟨rfl, fun _ ↦ rfl⟩
  | rollback =>
    refine ⟨?_, fun hne ↦ absurd rfl hne⟩
    simp only [Session.connectionCall, Connection.rollback]
    cases c.connection.failRollback <;> rfl
  | execute cmd =>
    simp only [Session.connectionCall]
    rw [muted_send]
    refine ⟨rfl, fun _ ↦ ?_⟩
    cases (c.send cmd).1 <;> rfl
  | _ => exact ⟨rfl, fun _ ↦ rfl⟩

end Context

namespace Statement

variable {t t' : Statement} {c d : Context}

theorem create_of_muted (h : c.muted = d.muted) (id : Nat) (catalog : Option String) :
    create c id catalog = create d id catalog := by
  unfold create
  rcases Context.lock_of_muted h with ⟨e, hl, hm⟩ | ⟨l, m, hl, hm, hlm⟩
  · rw [hl, hm]
  · have hk := Context.connection_of_muted hlm
    have hclosed : l.connection.closed = m.connection.closed :=
      eq_of_map_eq (f := Connection.closed) hk fun _ ↦ rfl
    have hbudget : l.connection.packetBudget = m.connection.packetBudget :=
      eq_of_map_eq (f := Connection.packetBudget) hk fun _ ↦ rfl
    have hcatalog : l.connection.catalog = m.connection.catalog :=
      eq_of_map_eq (f := Connection.catalog) hk fun _ ↦ rfl
    rw [hl, hm]
    dsimp only
    rw [hclosed, hbudget, hcatalog]

/-- The values that can be read off two statements are the same. -/
structure ReadsLike (t t' : Statement) (c d : Context) : Prop where
  closed : t.closed = t'.closed
  usable : t.usable c = t'.usable d
  maxFieldSize : t.maxFieldSize c = t'.maxFieldSize d
  maxRows : t.maxRows c = t'.maxRows d
  fetchSize : t.fetchSize c = t'.fetchSize d
  queryTimeout : t.queryTimeout c = t'.queryTimeout d
  fetchDirection : t.fetchDirection c = t'.fetchDirection d
  escapeProcessing : t.escapeProcessing c = t'.escapeProcessing d
  resultSetType : t.resultSetType c = t'.resultSetType d
  concurrency : t.concurrency c = t'.concurrency d
  holdability : t.holdability c = t'.holdability d
  updateCount : t.updateCount c = t'.updateCount d
  largeUpdateCount : t.largeUpdateCount c = t'.largeUpdateCount d
  generatedKey : t.generatedKey c = t'.generatedKey d
  hasMore : t.hasMore = t'.hasMore
  queue : t.queue = t'.queue
  warnings : t.warnings = t'.warnings

/-- No value that can be read off a statement depends on a failure. -/
theorem readsLike_of_muted (ht : t.muted = t'.muted) (hc : c.muted = d.muted) :
    t.ReadsLike t' c d := by
  have hsame {α : Type} {f : Statement → α} (hf : ∀ t, f t.muted = f t) : f t = f t' :=
    eq_of_map_eq ht hf
  have husable : t.usable c = t'.usable d :=
    (Context.usable_of_muted hc t).trans (hsame (f := fun t ↦ t.usable d) fun _ ↦ rfl)
  have hread {α : Type} {f : Statement → α} (hf : ∀ t, f t.muted = f t) :
      t.read c f = t'.read d f := by
    rw [read, read, husable, hsame hf]
  have hcount : t.largeUpdateCount c = t'.largeUpdateCount d :=
    hread fun t ↦ by unfold muted; cases t.current <;> rfl
  exact {
    closed := hsame fun _ ↦ rfl
    usable := husable
    maxFieldSize := hread fun _ ↦ rfl
    maxRows := hread fun _ ↦ rfl
    fetchSize := hread fun _ ↦ rfl
    queryTimeout := hread fun _ ↦ rfl
    fetchDirection := hread fun _ ↦ rfl
    escapeProcessing := hread fun _ ↦ rfl
    resultSetType := hread fun _ ↦ rfl
    concurrency := hread fun _ ↦ rfl
    holdability := hread fun _ ↦ rfl
    updateCount := by rw [updateCount, updateCount, hcount]
    largeUpdateCount := hcount
    generatedKey := hread fun _ ↦ rfl
    hasMore := hsame fun t ↦ by cases hp : t.pending <;> simp [hasMore, muted, hp]
    queue := hsame fun _ ↦ rfl
    warnings := hsame fun _ ↦ rfl }

end Statement

/-- A connection that does not commit by itself. Its answer to a query is a result with rows and an
update count behind it, and the hooks of both fail with the given error and rollbacks do too. -/
def Connection.refusing (failure : Option SqlError) : Connection where
  catalog := "main"
  autoCommit := false
  failRollback := failure.isSome
  rules := [⟨"SELECT", fun _ ↦ .ok
    ⟨{ rows := some ⟨[], []⟩, release := some { tag := "rows", failure } },
      [{ updateCount := 3, release := some { tag := "count", failure } }]⟩⟩]

namespace Session

/-- The session with its results, its connection and its journal muted. -/
def muted (s : Session) : Session :=
  { s with
    context := s.context.muted
    statements := s.statements.map (Option.map Statement.muted) }

variable {s s' : Session}

theorem context_of_muted (h : s.muted = s'.muted) : s.context.muted = s'.context.muted :=
  congrArg Session.context h

theorem statements_of_muted (h : s.muted = s'.muted) :
    s.statements.map (Option.map Statement.muted) =
      s'.statements.map (Option.map Statement.muted) :=
  congrArg Session.statements h

/-- A place is there in both sessions or in neither. -/
theorem getElem?_of_muted (h : s.muted = s'.muted) (place : Nat) :
    (s.statements[place]? = none ∧ s'.statements[place]? = none) ∨
      ∃ x x', s.statements[place]? = some x ∧ s'.statements[place]? = some x' ∧
        x.map Statement.muted = x'.map Statement.muted := by
  apply option_map_cases
  rw [← List.getElem?_map, statements_of_muted h, List.getElem?_map]

/-- A statement is in a place of both sessions or of neither. -/
theorem statement?_of_muted (h : s.muted = s'.muted) (place : Nat) :
    (s.statement? place = none ∧ s'.statement? place = none) ∨
      ∃ t t', s.statement? place = some t ∧ s'.statement? place = some t' ∧
        t.muted = t'.muted := by
  unfold statement?
  rcases getElem?_of_muted h place with ⟨hs, hs'⟩ | ⟨x, x', hs, hs', hx⟩
  · rw [hs, hs']
    exact .inl ⟨rfl, rfl⟩
  · rw [hs, hs']
    exact option_map_cases hx

/-- What becomes of a place is put back into both sessions. -/
theorem put_of_muted (h : s.muted = s'.muted) {c c' : Context} (hc : c.muted = c'.muted)
    (place : Nat) {x x' : Option Statement} (hx : x.map Statement.muted = x'.map Statement.muted) :
    ({ s with context := c, statements := s.statements.set place x } : Session).muted =
      ({ s' with context := c', statements := s'.statements.set place x' } : Session).muted := by
  have hmade : s.made = s'.made := eq_of_map_eq (f := Session.made) h fun _ ↦ rfl
  simp only [muted, List.map_set, hc, hx, hmade, statements_of_muted h]

theorem setContext_of_muted (h : s.muted = s'.muted) {c c' : Context} (hc : c.muted = c'.muted)
    {made made' : Nat} (hm : made = made') :
    ({ s with context := c, made } : Session).muted =
      ({ s' with context := c', made := made' } : Session).muted := by
  simp only [muted, hc, hm, statements_of_muted h]

/-- What an operation comes to, with the answer and the session muted. -/
def mutedEnd (x : Except SqlError Answer × Session) : Except SqlError Answer × Session :=
  (x.1.map Answer.muted, x.2.muted)

theorem place_of_muted (h : s.muted = s'.muted) {t t' : Statement} (ht : t.muted = t'.muted)
    {c c' : Context} (hc : c.muted = c'.muted) (setup : Setup) :
    mutedEnd (s.place t c setup) = mutedEnd (s'.place t' c' setup) := by
  have hid : t.id = t'.id := eq_of_map_eq (f := Statement.id) ht fun _ ↦ rfl
  have hlength : s.statements.length = s'.statements.length := by
    simpa using congrArg List.length (statements_of_muted h)
  have hmade : s.made = s'.made := eq_of_map_eq (f := Session.made) h fun _ ↦ rfl
  have hsetup : ({ t with setup } : Statement).muted = ({ t' with setup } : Statement).muted :=
    congrArg (fun t : Statement ↦ { t with setup }) ht
  simp only [mutedEnd, place, muted, hlength, hmade, hc, List.map_append, List.map_cons,
    List.map_nil, Option.map_some, statements_of_muted h]
  rw [hsetup, hid]

/-- A statement is made in both sessions or refused in both. -/
theorem make_of_muted (h : s.muted = s'.muted) (origin : Origin) (setup : Setup) :
    mutedEnd (s.make origin setup) = mutedEnd (s'.make origin setup) := by
  have hc := context_of_muted h
  have hmade : s.made = s'.made := eq_of_map_eq (f := Session.made) h fun _ ↦ rfl
  unfold make
  rw [Statement.create_of_muted hc, hmade]
  cases Statement.create s'.context (s'.made + 1) origin.catalog? with
  | error e => simp [mutedEnd, h]
  | ok t =>
    cases origin with
    | config g =>
      -- The same statement is made on both sides, so only the surroundings need to agree.
      have hset := Statement.runSetters_of_muted (s := t) rfl hc g.settings
      rw [← Statement.configSetters_eq] at hset
      unfold Statement.configure
      dsimp only
      generalize t.runSetters s.context (Statement.configSetters g) = o at hset ⊢
      generalize t.runSetters s'.context (Statement.configSetters g) = o' at hset ⊢
      obtain ⟨result, u, c⟩ := o
      obtain ⟨result', u', c'⟩ := o'
      have hu : u.muted = u'.muted := Outcome.statement_of_muted hset
      have hc' : c.muted = c'.muted := Outcome.context_of_muted hset
      rcases map_eq_map_cases (congrArg Outcome.result hset) with
        ⟨e, he, he'⟩ | ⟨_, _, ho, ho', -⟩
      · dsimp only at he he'
        rw [he, he']
        exact congrArg (Prod.mk _)
          (setContext_of_muted h (Statement.close_of_muted hu hc').2 rfl)
      · dsimp only at ho ho'
        rw [ho, ho']
        exact place_of_muted h hu hc' setup
    | plain => exact place_of_muted h rfl hc setup
    | catalog name => exact place_of_muted h rfl hc setup

/-- An operation comes to the same, and answers the same unless it hands its caller the outcome of a
hook or of a rollback. -/
theorem step_of_muted (h : s.muted = s'.muted) (op : Operation) :
    (s.step op).2.muted = (s'.step op).2.muted ∧
      (op.reportsFailure = false →
        (s.step op).1.map Answer.muted = (s'.step op).1.map Answer.muted) := by
  have hc := context_of_muted h
  have hmade : s.made = s'.made := eq_of_map_eq (f := Session.made) h fun _ ↦ rfl
  have hheld : s.context.held = s'.context.held :=
    eq_of_map_eq (f := Context.held) hc fun _ ↦ rfl
  have hunderwent (f : Hook.Effect) :
      (s.context.undergo f).muted = (s'.context.undergo f).muted := by
    rw [Context.muted_undergo, Context.muted_undergo, hc]
  cases op with
  | make origin setup =>
    have hmake := make_of_muted h origin setup
    unfold step
    dsimp only
    rw [hheld]
    split
    · exact ⟨congrArg Prod.snd hmake, fun _ ↦ congrArg Prod.fst hmake⟩
    · exact ⟨h, fun _ ↦ rfl⟩
  | call place call =>
    rcases statement?_of_muted h place with ⟨hs, hs'⟩ | ⟨t, t', hs, hs', ht⟩
    · unfold step
      dsimp only
      rw [hs, hs']
      exact ⟨h, fun _ ↦ rfl⟩
    · obtain ⟨hstatement, hcontext⟩ := Statement.states_of_muted ht hc call
      rw [step_call_eq hs, step_call_eq hs']
      refine ⟨put_of_muted h hcontext place (congrArg some hstatement), fun hr ↦ ?_⟩
      have hcall : call ≠ .serve .close := by
        rintro rfl
        simp [Operation.reportsFailure] at hr
      exact congrArg Outcome.result (Statement.perform_of_muted ht hc hcall)
  | drop place =>
    unfold step
    dsimp only
    rcases getElem?_of_muted h place with ⟨hs, hs'⟩ | ⟨x, x', hs, hs', hx⟩
    · rw [hs, hs']
      exact ⟨h, fun _ ↦ rfl⟩
    · rw [hs, hs']
      rcases option_map_cases hx with ⟨rfl, rfl⟩ | ⟨t, t', rfl, rfl, ht⟩
      · exact ⟨h, fun _ ↦ rfl⟩
      · have hclose := Statement.close_of_muted ht hc
        exact ⟨put_of_muted h hclose.2 place rfl, fun _ ↦ rfl⟩
  | connection call =>
    obtain ⟨hcontext, hanswer⟩ := s.context.muted_connectionCall call
    obtain ⟨hcontext', hanswer'⟩ := s'.context.muted_connectionCall call
    rw [hc] at hcontext hanswer
    unfold step
    dsimp only
    rw [hheld]
    split
    · refine ⟨setContext_of_muted h (hcontext.symm.trans hcontext') hmade, fun hr ↦ ?_⟩
      have hcall : call ≠ .rollback := by
        rintro rfl
        simp [Operation.reportsFailure] at hr
      exact (hanswer hcall).symm.trans (hanswer' hcall)
    · exact ⟨h, fun _ ↦ rfl⟩
  | poison => exact ⟨setContext_of_muted h (hunderwent .poison) hmade, fun _ ↦ rfl⟩
  | dropConnection =>
    exact ⟨setContext_of_muted h (hunderwent .dropConnection) hmade, fun _ ↦ rfl⟩

/-- Sessions that are the same but for failures that nobody waits for stay so through a run. -/
theorem run_of_muted (h : s.muted = s'.muted) (ops : List Operation) :
    (s.run ops).muted = (s'.run ops).muted := by
  induction ops generalizing s s' with
  | nil => exact h
  | cons op rest ih => exact ih (step_of_muted h op).1

/-- Nothing tells the sessions apart but the log, and the answer to a caller that closes a result or
rolls back by itself. -/
structure Indistinguishable (s s' : Session) : Prop where
  /-- The whole states are the same without the log and the errors of hooks and rollbacks. -/
  same : s.muted = s'.muted
  answers : ∀ op, op.reportsFailure = false →
    (s.step op).1.map Answer.muted = (s'.step op).1.map Answer.muted
  places : s.statements.map (Option.map Statement.muted) =
    s'.statements.map (Option.map Statement.muted)
  readings : ∀ place t t', s.statement? place = some t → s'.statement? place = some t' →
    t.ReadsLike t' s.context s'.context
  metrics : s.context.metrics = s'.context.metrics
  processMetrics : s.context.processMetrics = s'.context.processMetrics
  dispatches : s.context.connection.dispatches = s'.context.connection.dispatches
  catalog : s.context.connection.catalog = s'.context.connection.catalog
  selections : s.context.connection.selections = s'.context.connection.selections
  rollbacks : s.context.connection.rollbacks = s'.context.connection.rollbacks
  announcements : s.context.connection.announcements = s'.context.connection.announcements
  /-- The same hooks have run in the same order. -/
  released : s.context.released.map Hook.muted = s'.context.released.map Hook.muted

theorem indistinguishable_of_muted (h : s.muted = s'.muted) : s.Indistinguishable s' := by
  have hc := context_of_muted h
  have hk := Context.connection_of_muted hc
  exact {
    same := h
    answers := fun op hop ↦ (step_of_muted h op).2 hop
    places := statements_of_muted h
    readings := fun place t t' ht ht' ↦ by
      rcases statement?_of_muted h place with ⟨hs, -⟩ | ⟨u, u', hs, hs', hu⟩
      · simp [hs] at ht
      · rw [Option.some.inj (ht.symm.trans hs), Option.some.inj (ht'.symm.trans hs')]
        exact Statement.readsLike_of_muted hu hc
    metrics := eq_of_map_eq (f := Context.metrics) hc fun _ ↦ rfl
    processMetrics := eq_of_map_eq (f := Context.processMetrics) hc fun _ ↦ rfl
    dispatches := eq_of_map_eq (f := Connection.dispatches) hk fun _ ↦ rfl
    catalog := eq_of_map_eq (f := Connection.catalog) hk fun _ ↦ rfl
    selections := eq_of_map_eq (f := Connection.selections) hk fun _ ↦ rfl
    rollbacks := eq_of_map_eq (f := Connection.rollbacks) hk fun _ ↦ rfl
    announcements := eq_of_map_eq (f := Connection.announcements) hk fun _ ↦ rfl
    released := by rw [← Context.muted_released, hc, Context.muted_released] }

/-- Whether hooks and rollbacks fail cannot be told from a session, whatever it has run. -/
theorem suppressed_failures_invisible {k k' : Connection} (h : k.muted = k'.muted)
    (ops : List Operation) :
    ((start k).run ops).Indistinguishable ((start k').run ops) := by
  have hstart : (start k).muted = (start k').muted := congrArg start h
  exact indistinguishable_of_muted (run_of_muted hstart ops)

/-- A query takes the place of an update that got rows and was rolled back. Four hooks and the
rollback fail or not, and only the journal and the answer to a close show it. -/
theorem suppressed_failures_invisible_refusing :
    let ops : List Operation :=
      [.make .plain {}, .call 0 (.query "SELECT 1"), .call 0 (.update "SELECT 2" none),
        .call 0 (.query "SELECT 3")]
    let close : Operation := .call 0 (.serve .close)
    let e : SqlError := .connectionClosed
    let k := Connection.refusing (some e)
    let k' := Connection.refusing none
    let s := (start k).run ops
    let s' := (start k').run ops
    k.muted = k'.muted ∧ s.Indistinguishable s' ∧ s.context.released.length = 4 ∧
      s.context.connection.rollbacks = 1 ∧
      s'.context.journal.length < s.context.journal.length ∧
        (s.step close).1 = .error e ∧ (s'.step close).1 = .ok (.reply (some .done)) := by
  intro ops close e k k' s s'
  have h : k.muted = k'.muted := rfl
  exact ⟨h, suppressed_failures_invisible h ops, by decide +kernel, by decide +kernel,
    by decide +kernel, by decide +kernel, by decide +kernel⟩

end Session

end SqlSession
