import SqlSession.Proofs.Atomicity
import SqlSession.Proofs.Custody
import SqlSession.Proofs.SettingCalls
import SqlSession.Proofs.Surroundings

/-!
# The end of a statement

A statement that was closed has let go of its connection and of all that it held, and stays so:
it refuses every call and touches nothing any more. A statement whose connection the application
has given up refuses every call as well, yet closing it still releases all that it holds.
-/

namespace SqlSession

namespace Context

/-- Nobody is at work on the connection: its mutex is free, and no batch holds it. -/
structure Idle (c : Context) : Prop where
  locked : c.locked = false
  borrowed : c.borrowed = false

theorem locked_noteAll (c : Context) (es : List Event) : (c.noteAll es).locked = c.locked := by
  obtain ⟨_, _, h⟩ := c.noteAll_eq es
  rw [h]

theorem locked_count (c : Context) (scope : Metrics.Scope) (f : Metrics → Metrics) :
    (c.count scope f).locked = c.locked := by
  cases scope <;> rfl

theorem borrowed_count (c : Context) (scope : Metrics.Scope) (f : Metrics → Metrics) :
    (c.count scope f).borrowed = c.borrowed := by
  cases scope <;> rfl

end Context

namespace Statement

/-- A rollback leaves the mutex free. -/
theorem locked_undo (s : Statement) {c : Context} (h : c.locked = false) :
    (s.undo c).locked = false := by
  unfold undo
  split
  · exact h
  · split
    · exact (c.locked_noteAll _).trans h
    · split
      · rfl
      · dsimp only
        split <;> rfl

/-- Every step of a call leaves the mutex free. -/
theorem locked_law : StepLaw fun _ c _ c' ↦ c.locked = false → c'.locked = false where
  toQuietLaw := by
    refine .of_context (fun _ h ↦ h) (fun h₁ h₂ ↦ h₂ ∘ h₁) (fun c es h ↦ ?_) (fun v c h ↦ ?_)
    · exact (c.locked_noteAll es).trans h
    · cases v <;> first | exact h | rfl
  borrow _ _ _ h := h
  log _ c rs h := (c.locked_noteAll _).trans h
  failedBatch _ c scope h := (c.locked_count scope _).trans h
  attempt s c kind sql h := by
    have hx := s.attempt_course c kind sql
    generalize s.attempt c kind sql = o at hx ⊢
    cases hx with
    | refused _ => exact h
    | @lockedOut text e _ _ =>
      dsimp only
      rw [opening, Context.releaseSlot_eq, Context.releaseSlot_eq, Context.log,
        Context.locked_noteAll, Context.locked_noteAll, Context.locked_noteAll]
      exact h
    | failed _ _ _ => exact (Context.locked_noteAll _ _).trans (Context.locked_count _ _ _)
    | rejected _ _ _ _ =>
      exact locked_undo _ ((Context.locked_noteAll _ _).trans (Context.locked_count _ _ _))
    | presented _ _ _ _ => exact Context.locked_count _ _ _

/-- Between the calls of its statements nobody is at work on a connection. -/
theorem idle_perform {c : Context} (h : c.Idle) (s : Statement) (call : Call) :
    (s.perform c call).context.Idle := by
  refine ⟨locked_law.perform s c call h.locked, ?_⟩
  have law := Context.borrowed_law
  cases hs : call.single? with
  | some ks =>
    obtain ⟨f, hf⟩ := perform_single (s := s) (c := c) hs
    rw [hf]
    exact (law.attempt s c ks.1 ks.2).trans h.borrowed
  | none =>
    cases hq : call.quiet with
    | true => exact (law.quiet.perform hq s c).trans h.borrowed
    | false =>
      rw [Call.eq_runBatch hs hq]
      change (s.runBatch c).context.borrowed = false
      unfold runBatch
      dsimp only
      split
      · exact h.borrowed
      · split
        · exact law.log _ _
        · exact (Context.borrowed_count _ _ _).trans (law.log _ _)

/-- The packets that a statement holds. -/
def held (t : Statement) : List Packet := t.current.toList ++ t.pending.toList ++ t.retained

/-- A statement that was closed: it refers to no connection and holds nothing. -/
structure Emptied (t : Statement) : Prop where
  closed : t.closed = true
  attached : t.attached = false
  current : t.current = none
  pending : t.pending = none
  retained : t.retained = []
  queue : t.queue = []
  warnings : t.warnings = []

/-- A statement that is open refers to its connection, and one that is not was closed. -/
structure Standing (t : Statement) : Prop where
  attached : t.closed = false → t.attached = true
  emptied : t.closed = true → t.Emptied

theorem Standing.of_open {t : Statement} (hc : t.closed = false) (ha : t.attached = true) :
    t.Standing where
  attached _ := ha
  emptied ho := by simp [hc] at ho

theorem Emptied.standing {t : Statement} (h : t.Emptied) : t.Standing where
  attached ho := by simp [h.closed] at ho
  emptied _ := h

theorem close_of_closed {t : Statement} (h : t.closed = true) (c : Context) :
    t.close c = (t, c) := by
  rw [close, if_pos h]

/-- Closing an open statement releases all that it holds, and touches nothing else that statements
share. -/
theorem close_of_open {t : Statement} (h : t.closed = false) (c : Context) :
    (∃ es, (t.close c).2 = c.noteAll es) ∧
      (t.close c).2.released = c.released ++ t.held.flatMap Packet.closing := by
  rw [close, if_neg (by simp [h])]
  refine ⟨?_, by simp [held]⟩
  dsimp only
  rw [Context.log, Context.releaseAll_eq, Context.releaseSlot_eq, Context.releaseSlot_eq,
    ← Context.noteAll_append, ← Context.noteAll_append, ← Context.noteAll_append]
  exact ⟨_, rfl⟩

theorem Standing.close {t : Statement} (h : t.Standing) (c : Context) :
    (t.close c).1.Emptied := by
  cases hc : t.closed with
  | true =>
    rw [close_of_closed hc]
    exact h.emptied hc
  | false =>
    rw [Statement.close, if_neg (by simp [hc])]
    exact ⟨rfl, rfl, rfl, rfl, rfl, rfl, rfl⟩

/-- The statement behind a call that finds it out of use: a batch has emptied its queue. -/
def refusing (t : Statement) : Call → Statement
  | .runBatch => { t with queue := [] }
  | _ => t

theorem Emptied.refusing {t : Statement} (h : t.Emptied) (call : Call) : t.refusing call = t := by
  cases call with
  | runBatch =>
    change ({ t with queue := [] } : Statement) = t
    rw [← h.queue]
  | _ => rfl

/-- An execution of a statement that cannot be used is refused. -/
theorem attempt_unusable {t : Statement} {c : Context} {e : SqlError} (h : t.usable c = .error e)
    (kind : StatementKind) (sql : String) : t.attempt c kind sql = ⟨.error e, t, c⟩ := by
  have hp : t.prepare c kind sql = .error e := by rw [prepare, h, Except.bind]
  rw [attempt, obtain_eq, hp]

/-- A statement that cannot be used refuses every call but closing it, and at most empties its
queue. -/
theorem perform_unusable {t : Statement} {c : Context} {e : SqlError} (h : t.usable c = .error e)
    {call : Call} (hc : call ≠ .close) : t.perform c call = ⟨.error e, t.refusing call, c⟩ := by
  have hread {α : Type} (f : Statement → α) : t.read c f = .error e := by
    rw [read, h, Except.map]
  cases hs : call.single? with
  | some ks =>
    obtain ⟨f, hf⟩ := perform_single (s := t) (c := c) hs
    have ht : t.refusing call = t := by
      cases call with
      | runBatch => simp [Call.single?] at hs
      | _ => rfl
    rw [hf, attempt_unusable h, ht]
    rfl
  | none =>
    by_cases hset : call.settings = []
    · cases call with
      | execute _ _ => simp [Call.single?] at hs
      | query _ => simp [Call.single?] at hs
      | update _ _ => simp [Call.single?] at hs
      | largeUpdate _ => simp [Call.single?] at hs
      | set _ => simp [Call.settings] at hset
      | configure g => simp [Call.settings, Config.settings] at hset
      | close => exact absurd rfl hc
      | more mode =>
        change (t.advance c mode).answer .flag = _
        rw [advance_error h]
        rfl
      | result =>
        change t.peek c (t.currentRows c) .result = _
        rw [currentRows, hread]
        rfl
      | serve q =>
        change (t.serveCurrent c q).answer .reply = _
        rw [serveCurrent, currentRows, hread]
        rfl
      | generatedKeys =>
        change t.peek c (t.generatedKeys c) .packet = _
        rw [generatedKeys, hread]
        rfl
      | warnings =>
        change t.peek c (t.currentWarnings c) .warnings = _
        rw [currentWarnings, hread]
        rfl
      | forgetWarnings =>
        rw [perform, Statement.forgetWarnings, h]
        rfl
      | enqueue sql =>
        rw [perform, Statement.enqueue, h]
        rfl
      | clearQueue =>
        rw [perform, Statement.clearQueue, h]
        rfl
      | runBatch =>
        have hb : ({ t with queue := [] } : Statement).checkBatch c = .error e := by
          have hu : ({ t with queue := [] } : Statement).usable c = .error e := h
          rw [checkBatch, hu, Except.bind]
        rw [perform, Statement.runBatch]
        dsimp only
        rw [hb]
        rfl
      | connection => rw [perform, peek, h]; rfl
      | setCursorName name => rw [perform, peek, h]; rfl
      | cancel => rw [perform, peek, h]; rfl
    · -- the first of the changes is refused
      rw [perform_settings hset]
      obtain ⟨v, vs, hv⟩ := List.exists_cons_of_ne_nil hset
      have hfirst : v.setter t c = .error e := Setting.setter_error_iff.2 (.inl h)
      have ht : t.refusing call = t := by
        cases call with
        | runBatch => simp [Call.settings] at hset
        | _ => rfl
      rw [hv, List.map_cons, runSetters, hfirst, ht]
      rfl

/-- Whether a statement is open and refers to its connection, and what it holds once it was closed,
no call upsets. -/
theorem Standing.perform {t : Statement} (h : t.Standing) (c : Context) (call : Call) :
    (t.perform c call).statement.Standing := by
  by_cases hcall : call = .close
  · rw [hcall]
    exact (h.close c).standing
  · cases hc : t.closed with
    | true =>
      have hu : t.usable c = .error .onClosedStatement := by rw [usable, if_pos hc]
      rw [perform_unusable hu hcall, (h.emptied hc).refusing]
      exact h
    | false =>
      have hapart : Apart fun t ↦ (t.closed, t.attached) := fun _ _ _ _ _ _ _ ↦ rfl
      have hkept : ((t.perform c call).statement.closed, (t.perform c call).statement.attached) =
          (t.closed, t.attached) :=
        hapart.perform (.inr fun _ _ ↦ rfl) (.inl hcall) t c
      obtain ⟨hclosed, hattached⟩ := Prod.mk.inj hkept
      exact .of_open (hclosed.trans hc) (hattached.trans (h.attached hc))

/-- Nothing can be read off a statement but the given error. -/
structure Unreadable (t : Statement) (c : Context) (e : SqlError) : Prop where
  maxFieldSize : t.maxFieldSize c = .error e
  maxRows : t.maxRows c = .error e
  fetchSize : t.fetchSize c = .error e
  queryTimeout : t.queryTimeout c = .error e
  fetchDirection : t.fetchDirection c = .error e
  escapeProcessing : t.escapeProcessing c = .error e
  resultSetType : t.resultSetType c = .error e
  concurrency : t.concurrency c = .error e
  holdability : t.holdability c = .error e
  updateCount : t.updateCount c = .error e
  largeUpdateCount : t.largeUpdateCount c = .error e
  generatedKey : t.generatedKey c = .error e

theorem unreadable_of_unusable {t : Statement} {c : Context} {e : SqlError}
    (h : t.usable c = .error e) : t.Unreadable c e := by
  have hread {α : Type} (f : Statement → α) : t.read c f = .error e := by
    rw [read, h, Except.map]
  refine ⟨hread _, hread _, hread _, hread _, hread _, hread _, hread _, hread _, hread _, ?_,
    hread _, hread _⟩
  rw [updateCount, largeUpdateCount, hread, Except.map]

end Statement

namespace Session

/-- Nobody is at work on the connection, and every statement is open and refers to it or was
closed. -/
structure AtRest (s : Session) : Prop where
  idle : s.context.Idle
  standing : ∀ t, some t ∈ s.statements → t.Standing

theorem atRest_start (connection : Connection) : (start connection).AtRest where
  idle := ⟨rfl, rfl⟩
  standing := by simp [start]

theorem idle_connectionCall {c : Context} (h : c.Idle) (call : ConnectionCall) :
    (connectionCall c call).2.Idle := by
  cases call with
  | selectCatalog name =>
    unfold connectionCall
    dsimp only
    split <;> exact ⟨h.locked, h.borrowed⟩
  | rollback =>
    unfold connectionCall
    dsimp only
    split <;> exact ⟨h.locked, h.borrowed⟩
  | _ => exact ⟨h.locked, h.borrowed⟩

/-- Every operation leaves a session at rest. -/
theorem atRest_step {s : Session} (hs : s.AtRest) (op : Operation) : (s.step op).2.AtRest := by
  have hlocked := Statement.locked_law
  have hborrowed := Context.borrowed_law.quiet
  have hstep := s.step_stepped op
  generalize (s.step op).2 = s' at hstep ⊢
  cases hstep with
  | idle => exact hs
  | @made origin setup t fs ht hf =>
    refine ⟨⟨hlocked.runSetters hf t s.context hs.idle.locked,
      (hborrowed.runSetters hf t s.context).trans hs.idle.borrowed⟩, fun u hu ↦ ?_⟩
    rcases List.mem_append.1 hu with hu | hu
    · exact hs.standing u hu
    · have hkept := Statement.Apart.runSetters (f := fun t ↦ (t.closed, t.attached))
        (fun _ _ ↦ rfl) hf t s.context
      obtain ⟨hclosed, hattached⟩ := Prod.mk.inj hkept
      rw [Option.some.inj (List.mem_singleton.1 hu)]
      exact .of_open (hclosed.trans ht.closed) (hattached.trans ht.attached)
  | @unmade origin setup t fs ht hf =>
    refine ⟨⟨?_, ?_⟩, hs.standing⟩
    · exact hlocked.close _ _ (hlocked.runSetters hf t s.context hs.idle.locked)
    · exact (hborrowed.close _ _).trans
        ((hborrowed.runSetters hf t s.context).trans hs.idle.borrowed)
  | @called place t ht call =>
    refine ⟨Statement.idle_perform hs.idle t call, fun u hu ↦ ?_⟩
    rcases List.mem_or_eq_of_mem_set hu with hu | hu
    · exact hs.standing u hu
    · rw [Option.some.inj hu]
      exact (hs.standing t (List.mem_of_getElem? ht)).perform s.context call
  | @dropped place t ht =>
    refine ⟨⟨hlocked.close _ _ hs.idle.locked, (hborrowed.close _ _).trans hs.idle.borrowed⟩,
      fun u hu ↦ ?_⟩
    rcases List.mem_or_eq_of_mem_set hu with hu | hu
    · exact hs.standing u hu
    · simp at hu
  | beside call => exact ⟨idle_connectionCall hs.idle call, hs.standing⟩
  | underwent op f =>
    cases f with
    | poison => exact ⟨⟨hs.idle.locked, hs.idle.borrowed⟩, hs.standing⟩
    | dropConnection => exact ⟨⟨hs.idle.locked, hs.idle.borrowed⟩, hs.standing⟩

theorem atRest_run (connection : Connection) (ops : List Operation) :
    ((start connection).run ops).AtRest := by
  apply run_induction _ (atRest_start connection)
  exact fun s op _ hs ↦ atRest_step hs op

/-- A statement was closed. It holds nothing, refuses every call, and leaves the session as it
is. -/
structure Ended (s : Session) (place : Nat) (t : Statement) : Prop where
  there : s.statement? place = some t
  emptied : t.Emptied
  refused : ∀ call, call ≠ .close →
    s.step (.call place call) = (.error (.illegalState .statementClosed), s)
  unreadable : t.Unreadable s.context (.illegalState .statementClosed)
  again : s.step (.call place .close) = (.ok .done, s)
  dropped : (s.step (.drop place)).2.context = s.context

/-- A statement has lost its connection. It refuses every call and changes nothing but its queue,
and closing it still releases all that it holds. -/
structure Stranded (s : Session) (place : Nat) (t : Statement) : Prop where
  refused : ∀ call, call ≠ .close → call ≠ .runBatch →
    s.step (.call place call) = (.error .connectionClosed, s)
  batch : s.step (.call place .runBatch) =
    (.error .connectionClosed,
      { s with statements := s.statements.set place (some { t with queue := [] }) })
  unreadable : t.Unreadable s.context .connectionClosed
  closes : ∃ u c,
    s.step (.call place .close) =
        (.ok .done, { s with context := c, statements := s.statements.set place (some u) }) ∧
      u.Emptied ∧ c.released = s.context.released ++ t.held.flatMap Packet.closing ∧
        c.connection = s.context.connection ∧ c.metrics = s.context.metrics ∧
          c.processMetrics = s.context.processMetrics

/-- A statement without results, connection and queue has ended. -/
theorem ended_of_emptied {s : Session} {place : Nat} {t : Statement}
    (ht : s.statement? place = some t) (he : t.Emptied) : s.Ended place t := by
  have hu : t.usable s.context = .error .onClosedStatement := by
    rw [Statement.usable, if_pos he.closed]
  have hsame := Statement.close_of_closed he.closed s.context
  refine ⟨ht, he, fun call hc ↦ step_call_same ht ?_, Statement.unreadable_of_unusable hu,
    step_call_same ht ?_, ?_⟩
  · rw [Statement.perform_unusable hu hc, he.refusing]
    rfl
  · rw [Statement.perform, hsame]
  · unfold step
    dsimp only
    rw [statement?_eq_some.1 ht]
    dsimp only
    rw [hsame]

/-- Whatever happens to a session, a statement that has ended stays as it is until it is dropped. -/
theorem Ended.run {s : Session} {place : Nat} {t : Statement} (h : s.Ended place t)
    {ops : List Operation} (hd : .drop place ∉ ops) : (s.run ops).Ended place t := by
  have hstep : ∀ s : Session, ∀ op ∈ ops, s.Ended place t → (s.step op).2.Ended place t := by
    intro s op hop hs
    by_cases hcall : ∃ call, op = .call place call
    · obtain ⟨call, rfl⟩ := hcall
      by_cases hclose : call = .close
      · rw [hclose, hs.again]
        exact hs
      · rw [hs.refused call hclose]
        exact hs
    · have hne : ∀ call, op ≠ .call place call := fun call heq ↦ hcall ⟨call, heq⟩
      have hf : op.follows place = true := by
        cases op with
        | call p call =>
          have hp : p ≠ place := fun heq ↦ hne call (by rw [heq])
          simp [Operation.follows, hp]
        | drop p =>
          have hp : p ≠ place := fun heq ↦ hd (heq ▸ hop)
          simp [Operation.follows, hp]
        | _ => rfl
      exact ended_of_emptied (statement?_step hs.there hf hne) hs.emptied
  exact run_induction hstep h

/-- Once a statement is closed it has ended, whatever follows. -/
theorem ended_of_close {s : Session} (hs : s.AtRest) {place : Nat} {t : Statement}
    (ht : s.statement? place = some t) :
    (s.step (.call place .close)).2.Ended place (t.close s.context).1 := by
  have hstanding := hs.standing t (List.mem_of_getElem? (statement?_eq_some.1 ht))
  exact ended_of_emptied (step_call ht .close).2.2 (hstanding.close s.context)

/-- A statement that is open and whose connection the application has given up is stranded. -/
theorem stranded_of_lost {s : Session} (hs : s.AtRest) {place : Nat} {t : Statement}
    (ht : s.statement? place = some t) (ho : t.closed = false) (hl : s.context.held = false) :
    s.Stranded place t := by
  have hu : t.usable s.context = .error .connectionClosed := by
    rw [Statement.usable, if_neg (by simp [ho]), Context.alive, hl, hs.idle.borrowed]
    simp
  have hstanding := hs.standing t (List.mem_of_getElem? (statement?_eq_some.1 ht))
  obtain ⟨⟨es, hes⟩, hrel⟩ := Statement.close_of_open ho s.context
  refine ⟨fun call hc hb ↦ step_call_same ht ?_, ?_, Statement.unreadable_of_unusable hu, ?_⟩
  · have hsame : t.refusing call = t := by
      cases call with
      | runBatch => exact absurd rfl hb
      | _ => rfl
    rw [Statement.perform_unusable hu hc, hsame]
  · rw [step_call_eq ht, Statement.perform_unusable hu (by simp)]
    rfl
  · refine ⟨_, _, step_call_eq ht .close, hstanding.close s.context, hrel, ?_⟩
    obtain ⟨_, _, hn⟩ := s.context.noteAll_eq es
    change (t.close s.context).2.connection = _ ∧ (t.close s.context).2.metrics = _ ∧
      (t.close s.context).2.processMetrics = _
    rw [hes, hn]
    exact ⟨rfl, rfl, rfl⟩

/-- Closing a statement whose results are sound runs every hook that it holds. -/
theorem released_of_close {s : Session} {place : Nat} {t : Statement}
    (ht : s.statement? place = some t) (hs : t.Sound) :
    ∀ h ∈ t.hooks, h ∈ (s.step (.call place .close)).2.context.released := by
  intro h hh
  rw [(step_call ht .close).2.1]
  change h ∈ (t.close s.context).2.released
  cases hc : t.closed with
  | true =>
    rw [hs.closed hc] at hh
    simp at hh
  | false =>
    rw [(Statement.close_of_open hc s.context).2]
    obtain ⟨p, hp, hhp⟩ := List.mem_flatMap.1 hh
    have hsound : p.Sound := by
      rcases List.mem_append.1 hp with hp | hp
      · rcases List.mem_append.1 hp with hp | hp
        · exact hs.current p (by simpa using hp)
        · exact (hs.pending p (by simpa using hp)).sound
      · exact hs.retained p hp
    have hrun : h ∈ p.closing := by
      rw [← List.count_pos_iff, Packet.count_closing hsound]
      exact List.count_pos_iff.2 hhp
    exact List.mem_append_right _ (List.mem_flatMap.2 ⟨p, hp, hrun⟩)

/-- A statement that was closed has ended for good. One that is open when its connection is lost
is stranded, and closing a statement runs all hooks that it holds. -/
theorem statement_ends {connection : Connection} {before : List Operation} {place : Nat}
    {t : Statement} (ht : ((start connection).run before).statement? place = some t) :
    let s := (start connection).run before
    (∃ u, ∀ after, .drop place ∉ after →
      ((s.step (.call place .close)).2.run after).Ended place u) ∧
    (SqlError.illegalState .statementClosed).state = .ascii 'S' '1' '0' '0' '0' ∧
    (t.closed = false → s.context.held = false → s.Stranded place t) ∧
    (connection.Fresh → connection.AnswersOpen →
      ∀ h ∈ t.hooks, h ∈ (s.step (.call place .close)).2.context.released) := by
  intro s
  have hs : s.AtRest := atRest_run connection before
  refine ⟨⟨_, fun after hd ↦ (ended_of_close hs ht).run hd⟩, rfl, stranded_of_lost hs ht, ?_⟩
  intro hf ha
  have hstep : ∀ s : Session, ∀ op ∈ before, s.InOrder → (s.step op).2.InOrder :=
    fun s op _ hs ↦ inOrder_step hs op
  have horder : s.InOrder := run_induction hstep (inOrder_start hf ha)
  exact released_of_close ht (horder.sound t (List.mem_of_getElem? (statement?_eq_some.1 ht)))

/-- A statement with a result, another one behind it and a batch loses its connection. Closing it
runs both hooks, and it has ended whatever is asked of it. -/
theorem statement_ends_stranded :
    let before : List Operation :=
      [.make .plain {}, .call 0 (.query "SELECT 1"), .call 0 (.enqueue "UPDATE t"),
        .dropConnection]
    let after : List Operation := [.call 0 .runBatch, .call 0 .close, .call 0 (.query "SELECT 1")]
    let s := (start .chained).run before
    let s' := (s.step (.call 0 .close)).2
    ∃ t u, s.statement? 0 = some t ∧ t.closed = false ∧ s.context.held = false ∧
      t.queue = ["UPDATE t"] ∧ s.Stranded 0 t ∧ .drop 0 ∉ after ∧ (s'.run after).Ended 0 u ∧
        t.hooks.length = 2 ∧ ∀ h ∈ t.hooks, h ∈ s'.context.released := by
  intro before after s s'
  have ht : s.statement? 0 = some ((s.statement? 0).get rfl) := (Option.some_get rfl).symm
  have ho : ((s.statement? 0).get rfl).closed = false := by decide +kernel
  have hl : s.context.held = false := by decide +kernel
  have hf : Connection.chained.Fresh := ⟨rfl, rfl⟩
  have hdrop : Operation.drop 0 ∉ after := by simp [after]
  obtain ⟨⟨u, hu⟩, -, hlost, hhooks⟩ := statement_ends ht
  exact ⟨_, u, ht, ho, hl, by decide +kernel, hlost ho hl, hdrop, hu after hdrop,
    by decide +kernel, hhooks hf Connection.answersOpen_chained⟩

end Session

end SqlSession
