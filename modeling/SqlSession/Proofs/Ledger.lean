import SqlSession.Proofs.SessionSteps
import SqlSession.Proofs.Hooks

/-!
# Hooks handed out and hooks owed

The books of a connection tell which hooks it has handed out in its packets. `Context.owing` is
the number of times that a hook has been handed out and has not run. Whatever an exchange with
the connection comes to, the hooks that it hands out have run in it or are in the packet that
came back.
-/

namespace SqlSession

namespace Connection

/-- The packets that the connection answers with are open. -/
def AnswersOpen (c : Connection) : Prop :=
  ∀ r ∈ c.rules, ∀ sql p, r.answer sql = .ok p → p.Open

/-- The hooks of the packet that answers a text. -/
def answerHooks (c : Connection) (sql : String) : List Hook :=
  match c.answer sql with
  | .ok p => p.hooks
  | .error _ => []

/-- The hooks of all packets that the connection has given, in their order and numbered. -/
def handedOut (c : Connection) : List Hook :=
  Packet.numbered (c.dispatches.flatMap fun d ↦ c.answerHooks d.command.sql) 0

/-- The connection answers with open packets and has counted the hooks that it handed out. -/
structure Orderly (c : Connection) : Prop where
  answers : c.AnswersOpen
  issued : c.issued = c.handedOut.length

theorem open_of_answer {c : Connection} (h : c.AnswersOpen) {sql : String} {p : Packet}
    (ha : c.answer sql = .ok p) : p.Open := by
  unfold answer at ha
  split at ha
  · next r hr => exact h r (List.mem_of_find?_eq_some hr) sql p ha
  · have hd : defaultAnswer sql = p := Except.ok.inj ha
    rw [← hd]
    unfold defaultAnswer
    split <;> simp [Packet.Open, Packet.toList, Response.ofRows, Response.ofUpdate]

theorem answersOpen_chained : chained.AnswersOpen := by
  intro r hr sql p hp
  rw [List.mem_singleton.1 hr] at hp
  rw [← Except.ok.inj hp]
  simp [Packet.Open, Packet.toList]

/-- Two states of a connection with the same rules, records and numbers. -/
structure SameBooks (c k : Connection) : Prop where
  rules : k.rules = c.rules
  dispatches : k.dispatches = c.dispatches
  issued : k.issued = c.issued

theorem SameBooks.handedOut {c k : Connection} (h : c.SameBooks k) :
    k.handedOut = c.handedOut := by
  simp only [Connection.handedOut, answerHooks, answer, h.rules, h.dispatches]

theorem SameBooks.orderly {c k : Connection} (h : c.SameBooks k) (ho : c.Orderly) :
    k.Orderly where
  answers := by
    intro r hr
    exact ho.answers r (h.rules ▸ hr)
  issued := by rw [h.issued, h.handedOut, ho.issued]

theorem sameBooks_selectCatalog {c k : Connection} {name : String}
    (h : c.selectCatalog name = .ok k) : c.SameBooks k := by
  rw [(selectCatalog_ok h).2]
  exact ⟨rfl, rfl, rfl⟩

/-- A command adds the hooks of its answer, with the numbers that come next. -/
theorem handedOut_recording (c : Connection) (cmd : Command) (accepted : Bool) :
    (c.recording cmd accepted).handedOut =
      c.handedOut ++ Packet.numbered (c.answerHooks cmd.sql) c.handedOut.length := by
  have hl : c.handedOut.length =
      (c.dispatches.flatMap fun d ↦ c.answerHooks d.command.sql).length := by
    simp [handedOut, Packet.numbered]
  have ha : (c.recording cmd accepted).answerHooks = c.answerHooks := rfl
  rw [handedOut, ha, recording, List.flatMap_append, Packet.numbered_append, hl, Nat.zero_add]
  simp [handedOut]

end Connection

/-- The hooks of the packet that came back, if one did. -/
def outcomeHooks : Except SqlError Packet → List Hook
  | .ok p => p.hooks
  | .error _ => []

namespace Context

/-- How often the hook has been handed out and has not run. -/
def owing (c : Context) (h : Hook) : Int :=
  c.connection.handedOut.count h - c.released.count h

variable (c : Context) (h : Hook)

@[simp]
theorem owing_log (rs : List Log.Record) : (c.log rs).owing h = c.owing h := by
  simp [owing]

@[simp]
theorem owing_count (scope : Metrics.Scope) (f : Metrics → Metrics) :
    (c.count scope f).owing h = c.owing h := by
  simp [owing]

@[simp]
theorem owing_unlock : c.unlock.owing h = c.owing h := rfl

theorem owing_lock {c l : Context} (hl : c.lock = .ok l) (h : Hook) : l.owing h = c.owing h := by
  rw [lock_ok hl]
  rfl

/-- Keeping the books of the connection keeps what is owed. -/
theorem owing_connection {k : Connection} (hk : c.connection.SameBooks k) :
    ({ c with connection := k } : Context).owing h = c.owing h := by
  unfold owing
  rw [hk.handedOut]
  rfl

/-- Closing a packet settles its hooks. -/
theorem owing_release {p : Packet} (hp : p.Sound) :
    (c.release p).owing h = c.owing h - p.hooks.count h := by
  simp only [owing, connection_release, released_release, List.count_append,
    Packet.count_closing hp]
  omega

theorem owing_releaseSlot {slot : Option Packet} (hs : ∀ p, slot = some p → p.Sound) :
    (c.releaseSlot slot).owing h = c.owing h - (slot.toList.flatMap Packet.hooks).count h := by
  cases slot with
  | none => simp [releaseSlot]
  | some p => simp [releaseSlot, owing_release c h (hs p rfl)]

theorem owing_releaseAll {ps : List Packet} (hs : ∀ p ∈ ps, p.Sound) :
    (c.releaseAll ps).owing h = c.owing h - (ps.flatMap Packet.hooks).count h := by
  induction ps generalizing c with
  | nil => simp [releaseAll]
  | cons p r ih =>
    rw [releaseAll, List.foldl_cons, ← releaseAll, ih (c.release p) fun q hq ↦ hs q (by simp [hq]),
      owing_release c h (hs p (by simp)), List.flatMap_cons, List.count_append]
    omega

/-- What was handed out between two contexts has run or is in the packet that came back. -/
structure Yields (c : Context) (outcome : Except SqlError Packet) (c' : Context) : Prop where
  orderly : c'.connection.Orderly
  opened : ∀ p, outcome = .ok p → p.Open
  owing : ∀ h, c'.owing h = c.owing h + (outcomeHooks outcome).count h

/-- A command yields its answer. -/
theorem yields_send {c c' : Context} {cmd : Command} {outcome : Except SqlError Packet}
    (ho : c.connection.Orderly) (hs : c.send cmd = (outcome, c')) : c.Yields outcome c' := by
  cases outcome with
  | ok p =>
    obtain ⟨-, q, ha, rfl, rfl⟩ := send_ok hs
    obtain ⟨hq, hn⟩ := q.issue_eq c.connection.issued
    have hh : c.connection.answerHooks cmd.sql = q.hooks := by
      simp [Connection.answerHooks, ha]
    have hrec := c.connection.handedOut_recording cmd true
    rw [hh, ← ho.issued, ← hq] at hrec
    refine ⟨⟨ho.answers, ?_⟩, ?_, ?_⟩
    · change (q.issue c.connection.issued).2 = (c.connection.recording cmd true).handedOut.length
      rw [hrec, hn, List.length_append, hq, ← ho.issued]
      simp [Packet.numbered]
    · intro p hp
      rw [← Except.ok.inj hp]
      exact (Connection.open_of_answer ho.answers ha).issue _
    · intro h
      change ((c.connection.recording cmd true).handedOut.count h : Int) - c.released.count h = _
      rw [hrec, List.count_append, Context.owing, outcomeHooks]
      omega
  | error e =>
    rcases send_error hs with ⟨-, -, rfl⟩ | ⟨-, ha, rfl⟩
    · exact ⟨ho, by simp, by simp [outcomeHooks]⟩
    · have hrec := c.connection.handedOut_recording cmd false
      simp only [Connection.answerHooks, ha, Packet.numbered, List.zipIdx_nil, List.map_nil,
        List.append_nil] at hrec
      refine ⟨⟨ho.answers, ?_⟩, by simp, ?_⟩
      · rw [hrec]
        exact ho.issued
      · intro h
        change ((c.connection.recording cmd false).handedOut.count h : Int) - c.released.count h = _
        rw [hrec]
        simp [Context.owing, outcomeHooks]

end Context

namespace Statement

/-- Sending a text with its directive yields its packet; that of the directive is closed. -/
theorem yields_sending {s : Statement} {c : Context} {text : String} {f : Shape}
    {x : Except SqlError Packet × Context} (hx : Sending s c text f x)
    (ho : c.connection.Orderly) : c.Yields x.1 x.2 := by
  cases hx with
  | bare _ => exact Context.yields_send ho rfl
  | @withheld d e c' _ hd =>
    have hy := Context.yields_send (by simpa [announcing] using ho) hd
    refine ⟨hy.orderly, hy.opened, fun h ↦ ?_⟩
    rw [hy.owing]
    simp [announcing]
  | @directed d ack c' _ hd =>
    have hy := Context.yields_send (by simpa [announcing] using ho) hd
    have hack : ack.Open := hy.opened ack rfl
    generalize hsend : (c'.release ack).send (command text (s.route c text f).cap f) = x
    obtain ⟨outcome, c''⟩ := x
    have hz := Context.yields_send (by simpa using hy.orderly) hsend
    refine ⟨hz.orderly, hz.opened, fun h ↦ ?_⟩
    rw [hz.owing, Context.owing_release c' h hack.sound, hy.owing]
    simp only [announcing, Context.owing_count, Context.owing_log, outcomeHooks]
    omega

theorem yields_sendLimited {s : Statement} {c c' : Context} {text : String} {f : Shape}
    {outcome : Except SqlError Packet} (ho : c.connection.Orderly)
    (hx : s.sendLimited c text f = (outcome, c')) : c.Yields outcome c' := by
  have hs := yields_sending (s.sendLimited_sending c text f) ho
  rwa [hx] at hs

/-- The exchange in the catalog of a statement yields its packet, or closes it where the former
catalog cannot be selected again. -/
theorem yields_exchange {s : Statement} {c : Context} {text : String} {f : Shape}
    {x : Except SqlError Packet × Context} (hx : Exchange s c text f x)
    (ho : c.connection.Orderly) : c.Yields x.1 x.2 := by
  -- behind a change of the catalog the text is sent with the same books
  have inside {k : Connection} {outcome : Except SqlError Packet} {c' : Context}
      (hs : c.connection.selectCatalog s.catalog = .ok k)
      (hsend : s.sendLimited { c with connection := k } text f = (outcome, c')) :
      c.Yields outcome c' := by
    have hk := Connection.sameBooks_selectCatalog hs
    have hy := yields_sendLimited (c := { c with connection := k }) (hk.orderly ho) hsend
    exact ⟨hy.orderly, hy.opened, fun h ↦ by rw [hy.owing, Context.owing_connection c h hk]⟩
  cases hx with
  | inPlace _ => exact yields_sendLimited ho rfl
  | barred _ _ => exact ⟨ho, by simp, by simp [outcomeHooks]⟩
  | restored _ hs hsend hr =>
    have hy := inside hs hsend
    have hk := Connection.sameBooks_selectCatalog hr
    exact ⟨hk.orderly hy.orderly, hy.opened, fun h ↦ by
      rw [Context.owing_connection _ h hk, hy.owing]⟩
  | strandedError _ hs hsend _ =>
    have hy := inside hs hsend
    exact ⟨by simpa using hy.orderly, by simp, fun h ↦ by rw [Context.owing_log, hy.owing]⟩
  | strandedPacket _ hs hsend _ =>
    have hy := inside hs hsend
    refine ⟨by simpa using hy.orderly, by simp, fun h ↦ ?_⟩
    rw [Context.owing_release _ h (hy.opened _ rfl).sound, Context.owing_log, hy.owing]
    simp only [outcomeHooks, List.count_nil]
    omega

/-- A rollback hands out nothing and runs no hook. -/
theorem undo_books (s : Statement) (c : Context) :
    c.connection.SameBooks (s.undo c).connection ∧ ∀ h, (s.undo c).owing h = c.owing h := by
  obtain ⟨hr, n, hn⟩ := s.undo_connection c
  have hk : c.connection.SameBooks (s.undo c).connection := by
    rw [hn]
    exact ⟨rfl, rfl, rfl⟩
  refine ⟨hk, fun h ↦ ?_⟩
  rw [Context.owing, Context.owing, hr, hk.handedOut]

end Statement

namespace Session

/-- A call of the application beside the statements hands out nothing and runs no hook, unless
it sends a command. -/
theorem connectionCall_books {call : ConnectionCall}
    (hd : (Operation.connection call).direct = false) (c : Context) :
    c.connection.SameBooks (connectionCall c call).2.connection ∧
      (connectionCall c call).2.released = c.released := by
  cases call with
  | setReadOnly on => exact ⟨⟨rfl, rfl, rfl⟩, rfl⟩
  | setAutoCommit on => exact ⟨⟨rfl, rfl, rfl⟩, rfl⟩
  | setClosed on => exact ⟨⟨rfl, rfl, rfl⟩, rfl⟩
  | announceLimit => exact ⟨⟨rfl, rfl, rfl⟩, rfl⟩
  | selectCatalog name =>
    unfold connectionCall
    dsimp only
    split
    · next k hk => exact ⟨Connection.sameBooks_selectCatalog hk, rfl⟩
    · exact ⟨⟨rfl, rfl, rfl⟩, rfl⟩
  | rollback =>
    unfold connectionCall
    dsimp only
    split
    · exact ⟨⟨rfl, rfl, rfl⟩, rfl⟩
    · exact ⟨⟨rfl, rfl, rfl⟩, rfl⟩
  | execute cmd => simp [Operation.direct] at hd

end Session

end SqlSession
