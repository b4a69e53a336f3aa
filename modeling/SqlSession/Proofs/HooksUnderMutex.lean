import SqlSession.Proofs.ExchangeLaw
import SqlSession.Proofs.ExecutionLaw
import SqlSession.Proofs.Lifetime
import SqlSession.Proofs.Obtained

/-!
# The hooks that run under the mutex

A statement holds the mutex of the connection for the whole exchange of a text. Of the packets that
it is given there it keeps the one that the execution obtains, and closes all others, the answers to
its directives among them, before it lets go of the mutex. No other hook runs under the mutex.
-/

namespace SqlSession

namespace Context

/-- The hooks that have run while the mutex was held, in their order. -/
def releasedLocked (c : Context) : List Hook :=
  c.journal.filterMap fun e ↦ if e.locked then e.event.hook? else none

/-- Events add their hooks if the mutex is held. -/
theorem releasedLocked_noteAll (c : Context) (es : List Event) :
    (c.noteAll es).releasedLocked =
      c.releasedLocked ++ if c.locked then es.filterMap Event.hook? else [] := by
  obtain ⟨_, _, h⟩ := c.noteAll_eq es
  rw [h, releasedLocked, List.filterMap_append, List.filterMap_map, releasedLocked]
  cases c.locked with
  | true => rfl
  | false => exact congrArg (c.releasedLocked ++ ·) (List.filterMap_eq_nil_iff.2 fun _ _ ↦ rfl)

/-- With the mutex free no event runs a hook under it. -/
theorem releasedLocked_noteAll_free {c : Context} (h : c.locked = false) (es : List Event) :
    (c.noteAll es).releasedLocked = c.releasedLocked := by
  rw [releasedLocked_noteAll, h, if_neg Bool.false_ne_true, List.append_nil]

theorem releasedLocked_log (c : Context) (rs : List Log.Record) :
    (c.log rs).releasedLocked = c.releasedLocked := by
  have h : (rs.map Event.logged).filterMap Event.hook? = [] := by
    rw [List.filterMap_map]
    exact List.filterMap_eq_nil_iff.2 fun _ _ ↦ rfl
  rw [log, releasedLocked_noteAll, h, ite_self, List.append_nil]

@[simp]
theorem releasedLocked_count (c : Context) (scope : Metrics.Scope) (f : Metrics → Metrics) :
    (c.count scope f).releasedLocked = c.releasedLocked := by
  cases scope <;> rfl

/-- The mutex is held throughout, and every hook that runs does so under it. -/
def RunsLocked (c c' : Context) : Prop :=
  c.locked = true → c'.locked = true ∧ ∃ hooks, c'.released = c.released ++ hooks ∧
    c'.releasedLocked = c.releasedLocked ++ hooks

/-- What only touches the connection and the metrics runs no hook. -/
theorem RunsLocked.of_same {c c' : Context} (hl : c'.locked = c.locked)
    (hj : c'.journal = c.journal) : RunsLocked c c' := by
  intro h
  refine ⟨hl.trans h, [], ?_, ?_⟩
  · rw [released, hj, List.append_nil, released]
  · rw [releasedLocked, hj, List.append_nil, releasedLocked]

theorem RunsLocked.trans {c d e : Context} (h : RunsLocked c d) (h' : RunsLocked d e) :
    RunsLocked c e := by
  intro hc
  obtain ⟨hd, xs, hr, hl⟩ := h hc
  obtain ⟨he, ys, hr', hl'⟩ := h' hd
  exact ⟨he, xs ++ ys, by rw [hr', hr, List.append_assoc], by rw [hl', hl, List.append_assoc]⟩

theorem runsLocked_noteAll (c : Context) (es : List Event) : RunsLocked c (c.noteAll es) := by
  intro h
  refine ⟨(c.locked_noteAll es).trans h, es.filterMap Event.hook?, c.released_noteAll es, ?_⟩
  rw [releasedLocked_noteAll, if_pos h]

end Context

namespace Statement

open Context

/-- Every hook of an exchange runs under the mutex. -/
theorem runsLocked_law (s : Statement) : s.ExchangeLaw RunsLocked where
  trans := RunsLocked.trans
  events := runsLocked_noteAll
  directive c d := by
    have hlog : RunsLocked c (c.log (s.setup.logger.directive d s.id)) := runsLocked_noteAll c _
    have hcount : RunsLocked (c.log (s.setup.logger.directive d s.id)) (s.announcing c d) := by
      unfold announcing
      exact .of_same (locked_count _ _ _) (by cases s.setup.scope <;> rfl)
    exact (hlog.trans hcount).trans (.of_same rfl rfl)
  text _ _ _ _ := .of_same rfl rfl
  select _ := .of_same rfl rfl

/-- An exchange closes every packet that it is given but the one that comes back. -/
theorem exchange_released {s : Statement} {c c' : Context} {text : String} {f : Shape}
    {outcome : Except SqlError Packet} (ho : c.connection.closed = false)
    (h : s.exchangeInCatalog c text f = (outcome, c')) :
    ∃ sent, c'.connection.dispatches = c.connection.dispatches ++ sent ∧
      (∀ p, outcome = .ok p →
        (c.connection.packets c.connection.issued sent).getLast? = some p) ∧
      c'.released ++ outcomeClosing outcome =
        c.released ++ (c.connection.packets c.connection.issued sent).flatMap Packet.closing := by
  have hs := s.exchangeInCatalog_exchange c text f
  rw [h] at hs
  generalize hx : (outcome, c') = x at hs
  cases hs with
  | inPlace _ =>
    obtain ⟨sent, hsent, -⟩ := sends_sendLimited ho hx.symm
    obtain ⟨n, hn⟩ := hsent.connection
    exact ⟨sent, by rw [hn]; rfl, hsent.given, hsent.released⟩
  | barred _ _ =>
    obtain ⟨rfl, rfl⟩ := Prod.mk.inj hx
    exact ⟨[], by simp, by simp, by simp [outcomeClosing, Connection.packets]⟩
  | @restored k k' given d _ hsel hsend hr =>
    obtain ⟨rfl, rfl⟩ := Prod.mk.inj hx
    obtain ⟨sent, n, -, -, hn, -, hgiven, hrel⟩ := sends_selected ho hsel hsend
    obtain ⟨-, rfl⟩ := Connection.selectCatalog_ok hr
    exact ⟨sent, by simp [hn], hgiven, hrel⟩
  | strandedError _ hsel hsend _ =>
    obtain ⟨rfl, rfl⟩ := Prod.mk.inj hx
    obtain ⟨sent, n, -, -, hn, -, -, hrel⟩ := sends_selected ho hsel hsend
    refine ⟨sent, by simp [hn], by simp, ?_⟩
    rw [released_log]
    exact hrel
  | strandedPacket _ hsel hsend _ =>
    obtain ⟨rfl, rfl⟩ := Prod.mk.inj hx
    obtain ⟨sent, n, -, -, hn, -, -, hrel⟩ := sends_selected ho hsel hsend
    refine ⟨sent, by simp [hn], by simp, ?_⟩
    rw [released_release, released_log, outcomeClosing, List.append_nil]
    exact hrel

/-- A rollback behind a packet of the wrong sort runs no hook. -/
theorem releasedLocked_undo (s : Statement) (c : Context) :
    (s.undo c).releasedLocked = c.releasedLocked := by
  unfold undo
  split
  · rfl
  · split
    · exact c.releasedLocked_log _
    · next l hl =>
      rw [lock_ok hl]
      split
      · rfl
      · dsimp only
        split
        · exact releasedLocked_log _ _
        · rfl

end Statement

namespace Execution

/-- The packets that the connection gives the execution and that it does not obtain. -/
def discarded (e : Execution) : List Packet :=
  if e.obtained?.isSome then e.given.dropLast else e.given

/-- An execution that sends nothing discards nothing. -/
theorem discarded_of_unsent {e : Execution} (h : e.after.connection = e.context.connection) :
    e.discarded = [] := by
  have hsent : e.sent = [] := by rw [sent, h, List.drop_length]
  have hgiven : e.given = [] := by rw [given, hsent]; rfl
  simp [discarded, hgiven]

/-- The exchange of an execution runs the hooks of what the execution discards, and runs them under
the mutex. -/
theorem exchange_discarded {e : Execution} {text : String} {l c' : Context}
    {outcome : Except SqlError Packet} (hf : e.context.locked = false)
    (hp : e.statement.prepare e.context e.kind e.sql = .ok text)
    (hl : (e.statement.opening e.context e.kind text).lock = .ok l)
    (hx : e.statement.cleared.exchangeInCatalog l text (e.statement.shape e.kind text) =
      (outcome, c'))
    (hk : ∃ rollbacks, e.after.connection = { c'.connection with rollbacks }) :
    c'.releasedLocked = e.context.releasedLocked ++ e.discarded.flatMap Packet.closing := by
  have hbooks := Statement.connection_of_opening hl
  have ho := hbooks ▸ Statement.open_of_prepare hp
  obtain ⟨sent, hdispatches, hlast, hreleased⟩ := Statement.exchange_released ho hx
  have hobtained := (obtained?_of_exchange hp hl hx hk).1
  obtain ⟨n, hn⟩ := hk
  have hsent : e.sent = sent := by
    rw [Execution.sent, hn]
    simp [hdispatches, hbooks]
  have hgiven : e.given = l.connection.packets l.connection.issued sent := by
    rw [given, hsent, hbooks]
  rw [← hgiven] at hlast hreleased
  -- nothing runs under the mutex before it is taken
  have hbefore : l.releasedLocked = e.context.releasedLocked := by
    rw [Context.lock_ok hl, Statement.opening, Context.releaseSlot_eq, Context.releaseSlot_eq]
    refine (Context.releasedLocked_log _ _).trans ?_
    rw [Context.releasedLocked_noteAll_free ((Context.locked_noteAll _ _).trans hf),
      Context.releasedLocked_noteAll_free hf]
  have hlocked := e.statement.cleared.runsLocked_law.exchange l text (e.statement.shape e.kind text)
  rw [hx] at hlocked
  obtain ⟨-, hooks, hall, hunder⟩ := hlocked (by rw [Context.lock_ok hl])
  rw [hall, List.append_assoc] at hreleased
  have hhooks := List.append_cancel_left hreleased
  rw [hunder, hbefore, discarded, hobtained]
  cases outcome with
  | error err =>
    rw [outcomeClosing, List.append_nil] at hhooks
    rw [hhooks]
    rfl
  | ok p =>
    obtain ⟨first, hfirst⟩ := List.getLast?_eq_some_iff.1 (hlast p rfl)
    rw [hfirst, List.flatMap_append, List.flatMap_singleton] at hhooks
    rw [hfirst, List.append_cancel_right hhooks, List.dropLast_concat]
    rfl

/-- From a free mutex on, an execution runs under the mutex the hooks of what it discards. -/
theorem releasedLocked_after {e : Execution} (hf : e.context.locked = false) :
    e.after.releasedLocked =
      e.context.releasedLocked ++ e.discarded.flatMap Packet.closing := by
  have hx := e.statement.attempt_course e.context e.kind e.sql
  have hafter : e.after = (e.statement.attempt e.context e.kind e.sql).context := rfl
  generalize e.statement.attempt e.context e.kind e.sql = o at hx hafter
  cases hx with
  | refused _ =>
    rw [discarded_of_unsent (by rw [hafter]), hafter]
    exact (List.append_nil _).symm
  | @lockedOut text _ _ _ =>
    have hk : (e.statement.opening e.context e.kind text).connection = e.context.connection := by
      simp [Statement.opening]
    rw [discarded_of_unsent (by rw [hafter]; exact hk), hafter, Statement.opening,
      Context.releasedLocked_log, Context.releaseSlot_eq, Context.releaseSlot_eq,
      Context.releasedLocked_noteAll_free ((Context.locked_noteAll _ _).trans hf),
      Context.releasedLocked_noteAll_free hf]
    exact (List.append_nil _).symm
  | @failed text l c' err h hl hx =>
    have hd := exchange_discarded hf h hl hx ⟨c'.connection.rollbacks, by rw [hafter]; simp⟩
    rw [hafter, Context.releasedLocked_log, Context.releasedLocked_count]
    exact hd
  | @rejected text l c' p err h hl hx hm =>
    obtain ⟨r, hback⟩ := (e.statement.cleared.noting p).connection_reject
      (c'.unlock.count e.statement.setup.scope fun m ↦
        m.addStatement e.kind c'.connection.elapsed)
      (e.statement.adopt p)
    have hk : e.after.connection = { c'.connection with rollbacks := r } := by
      rw [hafter, hback, Context.connection_count, Context.connection_unlock]
    have hd := exchange_discarded hf h hl hx ⟨r, hk⟩
    rw [hafter, Statement.reject, Statement.releasedLocked_undo, Context.release,
      Context.releasedLocked_noteAll_free (Context.locked_count _ _ _),
      Context.releasedLocked_count]
    exact hd
  | @presented text l c' p h hl hx hm =>
    have hd := exchange_discarded hf h hl hx ⟨c'.connection.rollbacks, by rw [hafter]; simp⟩
    rw [hafter, Context.releasedLocked_count]
    exact hd

/-- From a free mutex on, executions run under the mutex the hooks of what they discard and no
others, and leave it free. -/
theorem discarded_law : ExecutionLaw fun c es c' ↦ c.locked = false →
    c'.locked = false ∧
      c'.releasedLocked = c.releasedLocked ++ es.flatMap fun e ↦
        e.discarded.flatMap Packet.closing where
  append h h' hc := by
    obtain ⟨hd, hfirst⟩ := h hc
    obtain ⟨he, hlast⟩ := h' hd
    exact ⟨he, by rw [hlast, hfirst, List.flatMap_append, List.append_assoc]⟩
  single e hc :=
    ⟨Statement.locked_law.attempt e.statement e.context e.kind e.sql hc,
      by rw [releasedLocked_after hc, List.flatMap_singleton]⟩
  events c es hc := by
    refine ⟨(c.locked_noteAll es).trans hc, ?_⟩
    rw [Context.releasedLocked_noteAll_free hc]
    exact (List.append_nil _).symm
  settle v c hc := by
    cases v <;> exact ⟨by first | exact hc | rfl, (List.append_nil _).symm⟩
  borrow _ _ hc := ⟨hc, (List.append_nil _).symm⟩
  failedBatch c scope hc :=
    ⟨(Context.locked_count _ _ _).trans hc, by simp⟩
  undergo c f hc := by
    cases f <;> exact ⟨hc, (List.append_nil _).symm⟩

end Execution

namespace Session

/-- The hooks that run under the mutex in a session are those of the packets that its executions are
given and do not obtain. Between operations the mutex is free. -/
theorem hooks_under_mutex (connection : Connection) (ops : List Operation) :
    ((start connection).run ops).context.locked = false ∧
      ((start connection).run ops).context.releasedLocked =
        ((start connection).executions ops).flatMap fun e ↦
          e.discarded.flatMap Packet.closing := by
  refine Execution.discarded_law.run (fun op _ call _ c hc ↦ ?_) (start connection) rfl
  unfold connectionCall
  cases call <;> dsimp only <;> (try split) <;> exact ⟨hc, (List.append_nil _).symm⟩

/-- The answer to a directive has a hook, which runs while the statement holds the mutex. -/
theorem hook_runs_under_mutex :
    ¬∀ (k : Connection) (ops : List Operation),
      ((start k).run ops).context.releasedLocked = [] := by
  intro h
  let k : Connection :=
    { catalog := "a", limitsRows := true, missingCatalog := some "a",
      rules := [⟨"SET OPTION", fun _ ↦ .ok
        ⟨{ updateCount := 0, release := some { tag := "ack", failure := some .connectionClosed } },
          []⟩⟩] }
  let ops : List Operation := [.make (.catalog "b") {}, .call 0 (.query "SELECT 1")]
  have hrun : ((start k).run ops).context.releasedLocked.map Hook.tag = ["ack"] := by
    decide +kernel
  rw [h k ops] at hrun
  simp at hrun

end Session

end SqlSession
