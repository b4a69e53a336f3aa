import SqlSession.Proofs.Surroundings

/-!
# Surroundings that look alike

Two surroundings are alike for statements if they differ only in who holds the connection besides
the application and in what was logged. An execution comes to the same from both, and leaves them
alike, while the application holds the connection.
-/

namespace SqlSession

namespace Context

/-- The surroundings differ in the lines that were logged and in the batch that holds the connection
at most. -/
structure Alike (c d : Context) : Prop where
  connection : d.connection = c.connection
  held : d.held = c.held
  poisoned : d.poisoned = c.poisoned
  metrics : d.metrics = c.metrics
  processMetrics : d.processMetrics = c.processMetrics
  released : d.released = c.released

/-- The same outcome in surroundings that are alike. -/
inductive AlikePair {α : Type} : α × Context → α × Context → Prop
  | mk (outcome : α) {c d : Context} (h : c.Alike d) : AlikePair (outcome, c) (outcome, d)

namespace Alike

variable {c d e : Context}

theorem refl (c : Context) : c.Alike c := ⟨rfl, rfl, rfl, rfl, rfl, rfl⟩

theorem symm (h : c.Alike d) : d.Alike c :=
  ⟨h.connection.symm, h.held.symm, h.poisoned.symm, h.metrics.symm, h.processMetrics.symm,
    h.released.symm⟩

theorem trans (h : c.Alike d) (h' : d.Alike e) : c.Alike e :=
  ⟨h'.connection.trans h.connection, h'.held.trans h.held, h'.poisoned.trans h.poisoned,
    h'.metrics.trans h.metrics, h'.processMetrics.trans h.processMetrics,
    h'.released.trans h.released⟩

/-- A batch may hold the connection or not. -/
theorem borrow (c : Context) (borrowed : Bool) : c.Alike { c with borrowed } :=
  ⟨rfl, rfl, rfl, rfl, rfl, rfl⟩

/-- Lines may be logged or not. -/
theorem logged (c : Context) (rs : List Log.Record) : c.Alike (c.log rs) := by
  induction rs generalizing c with
  | nil => exact refl c
  | cons r rest ih =>
    have hone : c.Alike (c.note (.logged r)) :=
      ⟨rfl, rfl, rfl, rfl, rfl, by simp [released_note, Event.hook?]⟩
    exact hone.trans (ih _)

theorem note (h : c.Alike d) (e : Event) : (c.note e).Alike (d.note e) := by
  have hr : (d.note e).released = (c.note e).released := by
    rw [released_note, released_note, h.released]
  unfold Context.note at hr ⊢
  dsimp only at hr ⊢
  split
  · next f hf =>
    simp only [hf] at hr
    cases f with
    | poison =>
      exact ⟨h.connection, h.held, by simp [undergo, h.poisoned, h.held], h.metrics,
        h.processMetrics, hr⟩
    | dropConnection =>
      exact ⟨h.connection, rfl, h.poisoned, h.metrics, h.processMetrics, hr⟩
  · next hf =>
    simp only [hf] at hr
    exact ⟨h.connection, h.held, h.poisoned, h.metrics, h.processMetrics, hr⟩

theorem noteAll (h : c.Alike d) (es : List Event) : (c.noteAll es).Alike (d.noteAll es) := by
  induction es generalizing c d with
  | nil => exact h
  | cons e rest ih => exact ih (h.note e)

theorem log (h : c.Alike d) (rs : List Log.Record) : (c.log rs).Alike (d.log rs) := h.noteAll _

theorem release (h : c.Alike d) (p : Packet) : (c.release p).Alike (d.release p) := h.noteAll _

theorem releaseSlot (h : c.Alike d) (slot : Option Packet) :
    (c.releaseSlot slot).Alike (d.releaseSlot slot) := by
  rw [releaseSlot_eq, releaseSlot_eq]
  exact h.noteAll _

theorem setLocked (h : c.Alike d) (a b : Bool) :
    ({ c with locked := a } : Context).Alike { d with locked := b } :=
  ⟨h.connection, h.held, h.poisoned, h.metrics, h.processMetrics, h.released⟩

theorem unlock (h : c.Alike d) : c.unlock.Alike d.unlock := h.setLocked false false

theorem setConnection (h : c.Alike d) (k : Connection) :
    ({ c with connection := k } : Context).Alike { d with connection := k } :=
  ⟨rfl, h.held, h.poisoned, h.metrics, h.processMetrics, h.released⟩

theorem count (h : c.Alike d) (scope : Metrics.Scope) (f : Metrics → Metrics) :
    (c.count scope f).Alike (d.count scope f) := by
  cases scope with
  | session =>
    exact ⟨h.connection, h.held, h.poisoned, congrArg f h.metrics, h.processMetrics, h.released⟩
  | process =>
    exact ⟨h.connection, h.held, h.poisoned, h.metrics, congrArg f h.processMetrics, h.released⟩

/-- The mutex can be taken in both or in neither. -/
theorem lock (h : c.Alike d) :
    (∃ e, c.lock = .error e ∧ d.lock = .error e) ∨
      ∃ l m, c.lock = .ok l ∧ d.lock = .ok m ∧ l.Alike m := by
  unfold Context.lock
  by_cases hp : c.poisoned = true
  · exact .inl ⟨_, if_pos hp, if_pos (h.poisoned.trans hp)⟩
  · have hp' : ¬d.poisoned = true := by rwa [h.poisoned]
    exact .inr ⟨_, _, if_neg hp, if_neg hp', h.setLocked true true⟩

theorem send (h : c.Alike d) (cmd : Command) : AlikePair (c.send cmd) (d.send cmd) := by
  unfold Context.send
  rw [h.connection]
  exact .mk _ (h.setConnection _)

theorem sendLimited (h : c.Alike d) (s : Statement) (text : String) (f : Shape) :
    AlikePair (s.sendLimited c text f) (s.sendLimited d text f) := by
  unfold Statement.sendLimited
  rw [h.connection]
  dsimp only
  split
  · exact h.send _
  · next directive _ =>
    have hd := ((h.log (s.setup.logger.directive directive s.id)).count s.setup.scope
      Metrics.addDirective).send (Statement.limitCommand directive)
    generalize Context.send ((c.log _).count _ _) _ = x at hd ⊢
    generalize Context.send ((d.log _).count _ _) _ = y at hd ⊢
    cases hd with
    | mk outcome hd =>
      cases outcome with
      | error e => exact .mk _ hd
      | ok ack => exact (hd.release ack).send _

theorem exchange (h : c.Alike d) (s : Statement) (text : String) (f : Shape) :
    AlikePair (s.exchangeInCatalog c text f) (s.exchangeInCatalog d text f) := by
  unfold Statement.exchangeInCatalog
  rw [h.connection]
  dsimp only
  split
  · exact h.sendLimited s text f
  · split
    · exact .mk _ h
    · next k _ =>
      have hx := (h.setConnection k).sendLimited s text f
      generalize s.sendLimited { c with connection := k } text f = x at hx ⊢
      generalize s.sendLimited { d with connection := k } text f = y at hx ⊢
      cases hx with
      | mk outcome hd =>
        dsimp only
        rw [hd.connection]
        split
        · exact .mk _ (hd.setConnection _)
        · cases outcome with
          | error e => exact .mk _ (hd.log _)
          | ok p => exact .mk _ ((hd.log _).release p)

/-- A connection that the application holds can be used in both or in neither. -/
theorem usable (h : c.Alike d) (hh : c.held = true) (s : Statement) :
    s.usable d = s.usable c := by
  have ha : d.alive = c.alive := by
    rw [alive, alive, h.held, hh]
    simp
  unfold Statement.usable
  rw [ha]

theorem prepare (h : c.Alike d) (hh : c.held = true) (s : Statement) (kind : StatementKind)
    (sql : String) : s.prepare d kind sql = s.prepare c kind sql := by
  have ha : Statement.checkAccess d kind sql = Statement.checkAccess c kind sql := by
    unfold Statement.checkAccess
    rcases h.lock with ⟨e, hc, hd⟩ | ⟨l, m, hc, hd, hl⟩
    · rw [hc, hd]
    · rw [hc, hd, Except.bind, Except.bind, hl.connection]
  unfold Statement.prepare
  rw [h.usable hh, ha]

theorem undo (h : c.Alike d) (hh : c.held = true) (s : Statement) :
    (s.undo c).Alike (s.undo d) := by
  unfold Statement.undo
  rw [h.usable hh]
  split
  · exact h
  · rcases h.lock with ⟨e, hc, hd⟩ | ⟨l, m, hc, hd, hl⟩
    · rw [hc, hd]
      exact h.log _
    · rw [hc, hd]
      dsimp only
      rw [hl.connection]
      split
      · exact hl.unlock
      · split
        · exact ((hl.setConnection _).log _).unlock
        · exact (hl.setConnection _).unlock

end Alike

end Context

namespace Statement

/-- An execution at whose end the application holds the connection comes to the same in surroundings
that are alike. -/
theorem attempt_alike {s : Statement} {c d : Context} (h : c.Alike d) {kind : StatementKind}
    {sql : String} (hh : (s.attempt c kind sql).context.held = true) :
    (s.attempt d kind sql).result = (s.attempt c kind sql).result ∧
      (s.attempt d kind sql).statement = (s.attempt c kind sql).statement ∧
      (s.attempt c kind sql).context.Alike (s.attempt d kind sql).context := by
  have hstart := Context.held_law.attempt s c kind sql hh
  have hp := h.prepare hstart s kind sql
  unfold attempt at hh ⊢
  rw [obtain_eq] at hh
  rw [obtain_eq, obtain_eq, hp]
  cases hprep : s.prepare c kind sql with
  | error e => exact ⟨rfl, rfl, h⟩
  | ok text =>
    rw [hprep] at hh
    dsimp only at hh ⊢
    have hopen : (s.opening c kind text).Alike (s.opening d kind text) :=
      ((h.releaseSlot _).releaseSlot _).log _
    rcases hopen.lock with ⟨e, hc, hd⟩ | ⟨l, m, hc, hd, hl⟩
    · rw [hc, hd]
      exact ⟨rfl, rfl, hopen⟩
    · rw [hc] at hh
      rw [hc, hd]
      dsimp only at hh ⊢
      have hx := hl.exchange s.cleared text (s.shape kind text)
      generalize s.cleared.exchangeInCatalog l text (s.shape kind text) = x at hh hx ⊢
      generalize s.cleared.exchangeInCatalog m text (s.shape kind text) = y at hx ⊢
      cases hx with
      | @mk outcome u _ hx =>
        cases outcome with
        | error e => exact ⟨rfl, rfl, (hx.unlock.count _ _).log _⟩
        | ok p =>
          simp only [settle, hx.connection] at hh ⊢
          have hcount := hx.unlock.count s.cleared.setup.scope fun m ↦
            m.addStatement kind u.connection.elapsed
          split
          · next e hm =>
            rw [hm] at hh
            have hrel := hcount.release ((p.bind s.cleared.binding).withoutWarnings)
            exact ⟨rfl, rfl, hrel.undo (Context.held_law.undo _ _ hh) _⟩
          · exact ⟨rfl, rfl, hcount⟩

end Statement

end SqlSession
