import SqlSession.Proofs.Attempt

/-!
# The exchange with the connection

What sending one command, sending a text behind its directive, and the whole exchange in the
catalog of a statement can come to. Nothing else touches the connection during an execution.
-/

namespace SqlSession

namespace Connection

/-- A catalog is selected where it is not the missing one. -/
theorem selectCatalog_ok {c k : Connection} {name : String} (h : c.selectCatalog name = .ok k) :
    c.missingCatalog ≠ some name ∧
      k = { c with catalog := name, selections := c.selections ++ [name] } := by
  unfold selectCatalog at h
  split at h
  · simp at h
  · next hm => exact ⟨hm, (Except.ok.inj h).symm⟩

/-- Only the missing catalog is refused. -/
theorem selectCatalog_error {c : Connection} {name : String} {e : SqlError}
    (h : c.selectCatalog name = .error e) :
    c.missingCatalog = some name ∧ e = unknownCatalog name := by
  unfold selectCatalog at h
  split at h
  · next hm => exact ⟨hm, (Except.error.inj h).symm⟩
  · simp at h

/-- The connection with the record of one more command. -/
def recording (c : Connection) (cmd : Command) (accepted : Bool) : Connection :=
  { c with dispatches := c.dispatches ++ [⟨cmd, c.catalog, accepted⟩] }

end Connection

namespace Context

/-- A packet comes from an open connection that recorded the command and numbered the hooks. -/
theorem send_ok {c c' : Context} {cmd : Command} {p : Packet} (h : c.send cmd = (.ok p, c')) :
    c.connection.closed = false ∧ ∃ q, c.connection.answer cmd.sql = .ok q ∧
      p = (q.issue c.connection.issued).1 ∧
      c' = { c with connection :=
        { c.connection.recording cmd true with issued := (q.issue c.connection.issued).2 } } := by
  unfold send Connection.send at h
  cases hc : c.connection.closed with
  | true => simp [hc] at h
  | false =>
    refine ⟨rfl, ?_⟩
    rw [if_neg (by simp [hc])] at h
    cases ha : c.connection.answer cmd.sql with
    | error e => simp [ha] at h
    | ok q =>
      rw [ha] at h
      obtain ⟨hp, rfl⟩ := Prod.mk.inj h
      exact ⟨q, rfl, (Except.ok.inj hp).symm, rfl⟩

/-- A closed connection refuses without a record; an open one records what it answers with an
error. -/
theorem send_error {c c' : Context} {cmd : Command} {e : SqlError}
    (h : c.send cmd = (.error e, c')) :
    (c.connection.closed = true ∧ e = .connectionClosed ∧ c' = c) ∨
      (c.connection.closed = false ∧ c.connection.answer cmd.sql = .error e ∧
        c' = { c with connection := c.connection.recording cmd false }) := by
  unfold send Connection.send at h
  cases hc : c.connection.closed with
  | true =>
    rw [if_pos hc] at h
    obtain ⟨he, rfl⟩ := Prod.mk.inj h
    exact .inl ⟨rfl, (Except.error.inj he).symm, rfl⟩
  | false =>
    refine .inr ⟨rfl, ?_⟩
    rw [if_neg (by simp [hc])] at h
    cases ha : c.connection.answer cmd.sql with
    | ok q => simp [ha] at h
    | error e' =>
      rw [ha] at h
      obtain ⟨he, rfl⟩ := Prod.mk.inj h
      exact ⟨by rw [Except.error.inj he], rfl⟩

end Context

namespace Statement

/-- How the statement limits a text on the connection at hand. -/
def route (s : Statement) (c : Context) (text : String) (f : Shape) : Sql.LimitRoute :=
  .choose c.connection.limitsRows text f.query s.settings.maxRows

/-- The surroundings in which a directive is sent: it is logged and counted. -/
def announcing (s : Statement) (c : Context) (directive : String) : Context :=
  (c.log (s.setup.logger.directive directive s.id)).count s.setup.scope Metrics.addDirective

/-- What sending a text with its directive can come to. -/
inductive Sending (s : Statement) (c : Context) (text : String) (f : Shape) :
    Except SqlError Packet × Context → Prop
  /-- No directive is needed. -/
  | bare (h : (s.route c text f).directive? = none) :
    Sending s c text f (c.send (command text (s.route c text f).cap f))
  /-- The directive is refused, and the text is not sent. -/
  | withheld {directive : String} {e : SqlError} {c' : Context}
      (h : (s.route c text f).directive? = some directive)
      (hd : (s.announcing c directive).send (limitCommand directive) = (.error e, c')) :
    Sending s c text f (.error e, c')
  /-- The text follows its directive, whose packet is closed in between. -/
  | directed {directive : String} {ack : Packet} {c' : Context}
      (h : (s.route c text f).directive? = some directive)
      (hd : (s.announcing c directive).send (limitCommand directive) = (.ok ack, c')) :
    Sending s c text f ((c'.release ack).send (command text (s.route c text f).cap f))

/-- Sending takes one of the listed ways. -/
theorem sendLimited_sending (s : Statement) (c : Context) (text : String) (f : Shape) :
    Sending s c text f (s.sendLimited c text f) := by
  cases h : (s.route c text f).directive? with
  | none =>
    have he : s.sendLimited c text f = c.send (command text (s.route c text f).cap f) := by
      unfold route at h
      simp only [sendLimited, h]
      rfl
    rw [he]
    exact .bare h
  | some d =>
    generalize hd : (s.announcing c d).send (limitCommand d) = x
    obtain ⟨outcome, c'⟩ := x
    have hd' := hd
    unfold announcing at hd'
    unfold route at h
    cases outcome with
    | error e =>
      simp only [sendLimited, h, hd']
      exact .withheld h hd
    | ok ack =>
      simp only [sendLimited, h, hd']
      exact .directed h hd

/-- What the exchange of a text with the connection can come to. -/
inductive Exchange (s : Statement) (c : Context) (text : String) (f : Shape) :
    Except SqlError Packet × Context → Prop
  /-- The catalog of the statement is selected already. -/
  | inPlace (h : c.connection.catalog = s.catalog) :
    Exchange s c text f (s.sendLimited c text f)
  /-- The catalog of the statement cannot be selected. -/
  | barred {e : SqlError} (h : c.connection.catalog ≠ s.catalog)
      (hs : c.connection.selectCatalog s.catalog = .error e) :
    Exchange s c text f (.error e, c)
  /-- The former catalog is selected again. -/
  | restored {k k' : Connection} {outcome : Except SqlError Packet} {c' : Context}
      (h : c.connection.catalog ≠ s.catalog)
      (hs : c.connection.selectCatalog s.catalog = .ok k)
      (hx : s.sendLimited { c with connection := k } text f = (outcome, c'))
      (hr : c'.connection.selectCatalog c.connection.catalog = .ok k') :
    Exchange s c text f (outcome, { c' with connection := k' })
  /-- The former catalog cannot be selected again after an error. -/
  | strandedError {k : Connection} {c' : Context} {e e' : SqlError}
      (h : c.connection.catalog ≠ s.catalog)
      (hs : c.connection.selectCatalog s.catalog = .ok k)
      (hx : s.sendLimited { c with connection := k } text f = (.error e', c'))
      (hr : c'.connection.selectCatalog c.connection.catalog = .error e) :
    Exchange s c text f (.error e', c'.log [Log.restoreFailed c.connection.catalog s.id e])
  /-- The former catalog cannot be selected again, and the packet is closed. -/
  | strandedPacket {k : Connection} {c' : Context} {p : Packet} {e : SqlError}
      (h : c.connection.catalog ≠ s.catalog)
      (hs : c.connection.selectCatalog s.catalog = .ok k)
      (hx : s.sendLimited { c with connection := k } text f = (.ok p, c'))
      (hr : c'.connection.selectCatalog c.connection.catalog = .error e) :
    Exchange s c text f
      (.error e, (c'.log [Log.restoreFailed c.connection.catalog s.id e]).release p)

/-- The exchange takes one of the listed ways. -/
theorem exchangeInCatalog_exchange (s : Statement) (c : Context) (text : String) (f : Shape) :
    Exchange s c text f (s.exchangeInCatalog c text f) := by
  unfold exchangeInCatalog
  dsimp only
  split
  · next h => exact .inPlace h
  · next h =>
    split
    · next hs => exact .barred h hs
    · next k hs =>
      generalize hx : s.sendLimited { c with connection := k } text f = x
      obtain ⟨outcome, c'⟩ := x
      dsimp only
      split
      · next hr => exact .restored h hs hx hr
      · next hr =>
        cases outcome with
        | error e' => exact .strandedError h hs hx hr
        | ok p => exact .strandedPacket h hs hx hr

/-- Undoing an execution counts a rollback at most. -/
theorem undo_connection (s : Statement) (c : Context) :
    (s.undo c).released = c.released ∧
      ∃ rollbacks, (s.undo c).connection = { c.connection with rollbacks } := by
  have same : ∃ rollbacks, c.connection = { c.connection with rollbacks } :=
    ⟨c.connection.rollbacks, rfl⟩
  unfold undo
  split
  · exact ⟨rfl, same⟩
  · split
    · exact ⟨by simp, by simpa using same⟩
    · next l hl =>
      rw [Context.lock_ok hl]
      split
      · exact ⟨rfl, same⟩
      · dsimp only
        split
        · rw [Context.released_unlock, Context.released_log, Context.connection_unlock,
            Context.connection_log]
          exact ⟨rfl, ⟨_, rfl⟩⟩
        · exact ⟨rfl, ⟨_, rfl⟩⟩

/-- Rejecting a packet counts a rollback at most. -/
theorem connection_reject (s : Statement) (c : Context) (p : Packet) :
    ∃ rollbacks, (s.reject c p).connection = { c.connection with rollbacks } := by
  obtain ⟨-, n, hn⟩ := s.undo_connection (c.release p)
  exact ⟨n, by rw [reject, hn, Context.connection_release]⟩

/-- What an attempt makes of its exchange with the connection. -/
inductive Attempted (s : Statement) (c : Context) (kind : StatementKind) (sql : String) :
    Outcome Packet → Prop
  /-- There is none: the checks or the mutex refuse it. -/
  | unsent {o : Outcome Packet} {e : SqlError}
      (h : s.prepare c kind sql = .error e ∨
        ∃ text, s.prepare c kind sql = .ok text ∧ (s.opening c kind text).lock = .error e)
      (he : o.result = .error e) (hk : o.context.connection = c.connection) :
    Attempted s c kind sql o
  /-- An error is passed on, and a packet costs a rollback at most. -/
  | exchanged {o : Outcome Packet} {text : String} {l c' : Context}
      {outcome : Except SqlError Packet} (h : s.prepare c kind sql = .ok text)
      (hl : (s.opening c kind text).lock = .ok l)
      (hx : s.cleared.exchangeInCatalog l text (s.shape kind text) = (outcome, c'))
      (hk : ∃ rollbacks, o.context.connection = { c'.connection with rollbacks })
      (he : ∀ e, outcome = .error e → o.result = .error e ∧ o.context.released = c'.released) :
    Attempted s c kind sql o

theorem attempt_attempted (s : Statement) (c : Context) (kind : StatementKind) (sql : String) :
    Attempted s c kind sql (s.attempt c kind sql) := by
  have hx := s.attempt_course c kind sql
  generalize s.attempt c kind sql = o at hx ⊢
  cases hx with
  | refused hp => exact .unsent (.inl hp) rfl rfl
  | lockedOut hp hl => exact .unsent (.inr ⟨_, hp, hl⟩) rfl (by simp [Statement.opening])
  | @failed text l c' e hp hl hx =>
    refine .exchanged hp hl hx ⟨c'.connection.rollbacks, by simp⟩ ?_
    intro e' he
    rw [Except.error.inj he]
    exact ⟨rfl, by simp⟩
  | @rejected text l c' p e hp hl hx hm =>
    obtain ⟨n, hn⟩ := (s.cleared.noting p).connection_reject
      (c'.unlock.count s.setup.scope fun m ↦ m.addStatement kind c'.connection.elapsed)
      (s.adopt p)
    refine .exchanged hp hl hx ⟨n, ?_⟩ (by simp)
    rw [hn, Context.connection_count, Context.connection_unlock]
  | @presented text l c' p hp hl hx hm =>
    exact .exchanged hp hl hx ⟨c'.connection.rollbacks, by simp⟩ (by simp)

end Statement

end SqlSession
