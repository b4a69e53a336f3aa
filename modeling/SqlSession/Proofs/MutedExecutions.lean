import SqlSession.Proofs.BatchUpdates
import SqlSession.Proofs.Muted

/-!
# Executions whose releases may fail

Two states that are the same but for the failures of release hooks and rollbacks, and for the log,
stay so through an execution, and both come to the same packet or error. `c.muted = d.muted` says
that two surroundings are the same in this sense, and so for statements and packets.
-/

namespace SqlSession

/-- Outcomes that are the same through a function are the same error, or values that are. -/
theorem map_eq_map_cases {ε α β : Type} {f : α → β} {x y : Except ε α} (h : x.map f = y.map f) :
    (∃ e, x = .error e ∧ y = .error e) ∨ ∃ a b, x = .ok a ∧ y = .ok b ∧ f a = f b := by
  cases x with
  | error e =>
    cases y with
    | error e' => exact .inl ⟨e, rfl, by rw [Except.error.inj h]⟩
    | ok b => simp [Except.map] at h
  | ok a =>
    cases y with
    | error e' => simp [Except.map] at h
    | ok b => exact .inr ⟨a, b, rfl, rfl, Except.ok.inj h⟩

theorem option_map_cases {α β : Type} {f : α → β} {x y : Option α} (h : x.map f = y.map f) :
    (x = none ∧ y = none) ∨ ∃ a b, x = some a ∧ y = some b ∧ f a = f b := by
  cases x with
  | none =>
    cases y with
    | none => exact .inl ⟨rfl, rfl⟩
    | some b => simp at h
  | some a =>
    cases y with
    | none => simp at h
    | some b => exact .inr ⟨a, b, rfl, rfl, Option.some.inj h⟩

theorem Connection.selectCatalog_of_muted {k k' : Connection} (h : k.muted = k'.muted)
    (name : String) :
    (∃ e, k.selectCatalog name = .error e ∧ k'.selectCatalog name = .error e) ∨
      ∃ l l', k.selectCatalog name = .ok l ∧ k'.selectCatalog name = .ok l' ∧
        l.muted = l'.muted := by
  apply map_eq_map_cases
  rw [← muted_selectCatalog, ← muted_selectCatalog, h]

namespace Context

/-- Two outcomes of an exchange that differ in failures at most that nobody waited for. -/
inductive MutedPair : Except SqlError Packet × Context → Except SqlError Packet × Context → Prop
  | error (e : SqlError) {c d : Context} (h : c.muted = d.muted) :
    MutedPair (.error e, c) (.error e, d)
  | packet {p q : Packet} {c d : Context} (hp : p.muted = q.muted) (h : c.muted = d.muted) :
    MutedPair (.ok p, c) (.ok q, d)

theorem muted_lock (c : Context) : c.muted.lock = c.lock.map muted := by
  unfold lock
  change (if c.poisoned = true then _ else _) = _
  split <;> rfl

variable {c d : Context}

theorem connection_of_muted (h : c.muted = d.muted) : c.connection.muted = d.connection.muted :=
  congrArg Context.connection h

/-- The mutex can be taken in both or in neither. -/
theorem lock_of_muted (h : c.muted = d.muted) :
    (∃ e, c.lock = .error e ∧ d.lock = .error e) ∨
      ∃ l m, c.lock = .ok l ∧ d.lock = .ok m ∧ l.muted = m.muted := by
  apply map_eq_map_cases
  rw [← muted_lock, ← muted_lock, h]

theorem setConnection_of_muted (h : c.muted = d.muted) {k k' : Connection}
    (hk : k.muted = k'.muted) :
    ({ c with connection := k } : Context).muted =
      ({ d with connection := k' } : Context).muted := by
  have hput : ({ c.muted with connection := k.muted } : Context) =
      { d.muted with connection := k'.muted } := by rw [h, hk]
  exact hput

theorem send_of_muted (h : c.muted = d.muted) (cmd : Command) :
    MutedPair (c.send cmd) (d.send cmd) := by
  have hx := c.muted_send cmd
  rw [h, d.muted_send cmd] at hx
  generalize c.send cmd = x at hx ⊢
  generalize d.send cmd = y at hx ⊢
  obtain ⟨outcome, c'⟩ := x
  obtain ⟨outcome', d'⟩ := y
  obtain ⟨hr, hc⟩ := Prod.mk.inj hx
  rcases map_eq_map_cases hr with ⟨e, rfl, rfl⟩ | ⟨q, p, rfl, rfl, hp⟩
  · exact .error e hc.symm
  · exact .packet hp.symm hc.symm

theorem sendLimited_of_muted (h : c.muted = d.muted) (s : Statement) (text : String) (f : Shape) :
    MutedPair (s.sendLimited c text f) (s.sendLimited d text f) := by
  have hlimits : c.connection.limitsRows = d.connection.limitsRows :=
    eq_of_map_eq (f := Connection.limitsRows) (connection_of_muted h) fun _ ↦ rfl
  unfold Statement.sendLimited
  rw [hlimits]
  dsimp only
  split
  · exact send_of_muted h _
  · next directive _ =>
    have hd := send_of_muted (c := (c.log (s.setup.logger.directive directive s.id)).count
      s.setup.scope Metrics.addDirective) (d := (d.log (s.setup.logger.directive directive
      s.id)).count s.setup.scope Metrics.addDirective) (by simp [h])
      (Statement.limitCommand directive)
    generalize Context.send ((c.log _).count _ _) _ = x at hd ⊢
    generalize Context.send ((d.log _).count _ _) _ = y at hd ⊢
    cases hd with
    | error e h' => exact .error e h'
    | packet hp h' => exact send_of_muted (by rw [muted_release, muted_release, hp, h']) _

theorem exchange_of_muted (h : c.muted = d.muted) (s : Statement) (text : String) (f : Shape) :
    MutedPair (s.exchangeInCatalog c text f) (s.exchangeInCatalog d text f) := by
  have hk := connection_of_muted h
  have hcatalog : c.connection.catalog = d.connection.catalog :=
    eq_of_map_eq (f := Connection.catalog) hk fun _ ↦ rfl
  unfold Statement.exchangeInCatalog
  rw [hcatalog]
  dsimp only
  split
  · exact sendLimited_of_muted h s text f
  · rcases Connection.selectCatalog_of_muted hk s.catalog with
      ⟨e, hc, hd⟩ | ⟨k, k', hc, hd, hkk⟩
    · rw [hc, hd]
      exact .error e h
    · rw [hc, hd]
      dsimp only
      have hx := sendLimited_of_muted (setConnection_of_muted h hkk) s text f
      generalize s.sendLimited { c with connection := k } text f = x at hx ⊢
      generalize s.sendLimited { d with connection := k' } text f = y at hx ⊢
      cases hx with
      | error e' h' =>
        rcases Connection.selectCatalog_of_muted (connection_of_muted h') d.connection.catalog
          with ⟨e, hc, hd⟩ | ⟨l, l', hc, hd, hl⟩
        · rw [hc, hd]
          exact .error e' (by rw [muted_log, muted_log, h'])
        · rw [hc, hd]
          exact .error e' (setConnection_of_muted h' hl)
      | packet hp h' =>
        rcases Connection.selectCatalog_of_muted (connection_of_muted h') d.connection.catalog
          with ⟨e, hc, hd⟩ | ⟨l, l', hc, hd, hl⟩
        · rw [hc, hd]
          exact .error e (by rw [muted_release, muted_release, muted_log, muted_log, hp, h'])
        · rw [hc, hd]
          exact .packet hp (setConnection_of_muted h' hl)

theorem usable_of_muted (h : c.muted = d.muted) (s : Statement) : s.usable c = s.usable d :=
  eq_of_map_eq (f := s.usable) h fun _ ↦ rfl

theorem prepare_of_muted (h : c.muted = d.muted) (s : Statement) (kind : StatementKind)
    (sql : String) : s.prepare c kind sql = s.prepare d kind sql := by
  have haccess : Statement.checkAccess c kind sql = Statement.checkAccess d kind sql := by
    unfold Statement.checkAccess
    rcases lock_of_muted h with ⟨e, hc, hd⟩ | ⟨l, m, hc, hd, hl⟩
    · rw [hc, hd]
    · have hk := connection_of_muted hl
      have hclosed : l.connection.closed = m.connection.closed :=
        eq_of_map_eq (f := Connection.closed) hk fun _ ↦ rfl
      have hreadOnly : l.connection.readOnly = m.connection.readOnly :=
        eq_of_map_eq (f := Connection.readOnly) hk fun _ ↦ rfl
      rw [hc, hd, Except.bind, Except.bind, hclosed, hreadOnly]
  unfold Statement.prepare
  rw [usable_of_muted h, haccess]

/-- Only the log tells whether a rollback was refused. -/
theorem undo_of_muted (h : c.muted = d.muted) (s : Statement) :
    (s.undo c).muted = (s.undo d).muted := by
  unfold Statement.undo
  rw [usable_of_muted h]
  split
  · exact h
  · rcases lock_of_muted h with ⟨e, hc, hd⟩ | ⟨l, m, hc, hd, hl⟩
    · rw [hc, hd]
      simp [h]
    · rw [hc, hd]
      have hk := connection_of_muted hl
      have hcommits : l.connection.autoCommit = m.connection.autoCommit :=
        eq_of_map_eq (f := Connection.autoCommit) hk fun _ ↦ rfl
      have hback : l.connection.rollback.2.muted = m.connection.rollback.2.muted :=
        congrArg (fun k : Connection ↦ k.rollback.2) hk
      have hcounted := setConnection_of_muted hl hback
      dsimp only
      rw [hcommits]
      split
      · simp [hl]
      · split
        · split <;> simp [hcounted]
        · split <;> simp [hcounted]

end Context

/-- The outcome with its state muted, and its value muted in the given way. -/
def Outcome.muted {α : Type} (f : α → α) (o : Outcome α) : Outcome α :=
  ⟨o.result.map f, o.statement.muted, o.context.muted⟩

/-- Muted outcomes that are the same belong to statements that are. -/
theorem Outcome.statement_of_muted {α : Type} {f : α → α} {o o' : Outcome α}
    (h : o.muted f = o'.muted f) : o.statement.muted = o'.statement.muted :=
  congrArg Outcome.statement h

theorem Outcome.context_of_muted {α : Type} {f : α → α} {o o' : Outcome α}
    (h : o.muted f = o'.muted f) : o.context.muted = o'.context.muted :=
  congrArg Outcome.context h

namespace Statement

variable {s t : Statement} {c d : Context}

/-- The slots hold the same packets. -/
theorem slots_of_muted (hs : s.muted = t.muted) :
    s.current.map Packet.muted = t.current.map Packet.muted ∧
      s.pending.map Packet.muted = t.pending.map Packet.muted ∧
        s.retained.map Packet.muted = t.retained.map Packet.muted :=
  ⟨congrArg Statement.current hs, congrArg Statement.pending hs, congrArg Statement.retained hs⟩

theorem reject_of_muted (hs : s.muted = t.muted) (hc : c.muted = d.muted) {p q : Packet}
    (hp : p.muted = q.muted) : (s.reject c p).muted = (t.reject d q).muted := by
  have hundo : s.undo = t.undo := eq_of_map_eq (f := Statement.undo) hs fun _ ↦ rfl
  rw [reject, reject, hundo]
  exact Context.undo_of_muted (by simp [hc, hp]) t

/-- The same is made of a packet but for failures that nobody waits for. -/
theorem conclude_of_muted (hs : s.muted = t.muted) (kind : StatementKind)
    {x y : Except SqlError Packet × Context} (h : Context.MutedPair x y) :
    (s.conclude kind x).muted Packet.muted = (t.conclude kind y).muted Packet.muted := by
  have hsetup : s.setup = t.setup := eq_of_map_eq (f := Statement.setup) hs fun _ ↦ rfl
  have hcleared : s.cleared.muted = t.cleared.muted := congrArg Statement.cleared hs
  cases h with
  | @error e c d h => simp [conclude, Outcome.muted, hcleared, hsetup, h]
  | @packet p q c d hp h =>
    have hadopt : (s.adopt p).muted = (t.adopt q).muted := by
      have hboth : s.muted.adopt p.muted = t.muted.adopt q.muted := by rw [hs, hp]
      exact hboth
    have hnoting : (s.cleared.noting p).muted = (t.cleared.noting q).muted := by
      have hboth : s.cleared.muted.noting p.muted = t.cleared.muted.noting q.muted := by
        rw [hcleared, hp]
      exact hboth
    have hsort : kind.mismatch? (s.adopt p) = kind.mismatch? (t.adopt q) :=
      eq_of_map_eq (f := kind.mismatch?) hadopt fun _ ↦ by cases kind <;> rfl
    have helapsed : c.connection.elapsed = d.connection.elapsed :=
      eq_of_map_eq (f := fun c : Context ↦ c.connection.elapsed) h fun _ ↦ rfl
    unfold conclude
    dsimp only
    rw [hsort, hsetup]
    cases kind.mismatch? (t.adopt q) with
    | some e =>
      have hcounted (elapsed : Nat) :
          (c.unlock.count t.setup.scope fun m ↦ m.addStatement kind elapsed).muted =
            (d.unlock.count t.setup.scope fun m ↦ m.addStatement kind elapsed).muted := by
        simp [h]
      rw [Outcome.muted, Outcome.muted, hnoting, helapsed,
        reject_of_muted hnoting (hcounted _) hadopt]
    | none => simp [Outcome.muted, Except.map, hnoting, hadopt, h, helapsed]

/-- An execution comes to the same from states that are the same but for failures that nobody waits
for. -/
theorem attempt_of_muted (hs : s.muted = t.muted) (hc : c.muted = d.muted) (kind : StatementKind)
    (sql : String) :
    (s.attempt c kind sql).muted Packet.muted = (t.attempt d kind sql).muted Packet.muted := by
  have hprepare : s.prepare d kind sql = t.prepare d kind sql :=
    eq_of_map_eq (f := fun s ↦ s.prepare d kind sql) hs fun _ ↦ rfl
  have hcleared : s.cleared.muted = t.cleared.muted := congrArg Statement.cleared hs
  rw [attempt_eq, attempt_eq, Context.prepare_of_muted hc, hprepare]
  cases t.prepare d kind sql with
  | error e => simp [Outcome.muted, hs, hc]
  | ok text =>
    have hopen : (s.opening c kind text).muted = (t.opening d kind text).muted := by
      obtain ⟨hcurrent, hpending, -⟩ := slots_of_muted hs
      simp [opening, hcurrent, hpending, hc]
    dsimp only
    rcases Context.lock_of_muted hopen with ⟨e, hl, hm⟩ | ⟨l, m, hl, hm, hlm⟩
    · rw [hl, hm]
      simp [Outcome.muted, hcleared, hopen]
    · rw [hl, hm]
      have hsame : s.cleared.exchangeInCatalog m text (s.shape kind text) =
          t.cleared.exchangeInCatalog m text (t.shape kind text) :=
        eq_of_map_eq (f := fun s ↦ s.cleared.exchangeInCatalog m text (s.shape kind text)) hs
          fun _ ↦ rfl
      have hx := Context.exchange_of_muted hlm s.cleared text (s.shape kind text)
      rw [hsame] at hx
      exact conclude_of_muted hs kind hx

end Statement

/-- The course of a batch with its state muted. -/
def BatchRun.muted (r : BatchRun) : BatchRun :=
  { r with statement := r.statement.muted, context := r.context.muted }

namespace Statement

variable {s t : Statement} {c d : Context}

/-- The entries of a batch come to the same. -/
theorem runEntries_of_muted (hs : s.muted = t.muted) (hc : c.muted = d.muted)
    (entries : List String) :
    (s.runEntries c entries).muted = (t.runEntries d entries).muted := by
  induction entries generalizing s t c d with
  | nil => simp [runEntries, BatchRun.muted, hs, hc]
  | cons sql rest ih =>
    have ho := attempt_of_muted hs hc .update sql
    rw [runEntries_cons_eq, runEntries_cons_eq]
    generalize s.attempt c .update sql = o at ho ⊢
    generalize t.attempt d .update sql = o' at ho ⊢
    have hresult : o.result.map Packet.muted = o'.result.map Packet.muted :=
      congrArg Outcome.result ho
    have hafter : (s.afterEntry o).muted = (t.afterEntry o').muted := by
      have hlog (s : Statement) (o : Outcome Packet) :
          (s.afterEntry o).muted = o.context.muted := by
        unfold afterEntry
        split <;> simp
      rw [hlog, hlog, Outcome.context_of_muted ho]
    have hrest := ih (Outcome.statement_of_muted ho) hafter
    dsimp only
    generalize o.statement.runEntries (s.afterEntry o) rest = r at hrest ⊢
    generalize o'.statement.runEntries (t.afterEntry o') rest = r' at hrest ⊢
    rcases map_eq_map_cases hresult with ⟨e, hx, hy⟩ | ⟨p, q, hx, hy, hpq⟩
    · rw [hx, hy]
      exact congrArg (fun r : BatchRun ↦
        { r with
          counts := failedEntry :: r.counts
          failed := r.failed + 1
          lastError := r.lastError <|> some e }) hrest
    · have hcount : p.head.updateCount = q.head.updateCount :=
        eq_of_map_eq (f := fun p ↦ p.head.updateCount) hpq fun _ ↦ rfl
      rw [hx, hy]
      dsimp only
      rw [hcount]
      exact congrArg (fun r : BatchRun ↦
        { r with counts := narrowCount q.head.updateCount :: r.counts }) hrest

/-- A batch comes to the same. -/
theorem runBatch_of_muted (hs : s.muted = t.muted) (hc : c.muted = d.muted) :
    ((s.runBatch c).muted fun counts ↦ counts) = (t.runBatch d).muted fun counts ↦ counts := by
  have hrefusal : s.batchRefusal? c = t.batchRefusal? d :=
    (eq_of_map_eq (f := fun s ↦ s.batchRefusal? c) hs fun _ ↦ rfl).trans
      (eq_of_map_eq (f := t.batchRefusal?) hc fun _ ↦ rfl)
  have hempty : ({ s with queue := [] } : Statement).muted =
      ({ t with queue := [] } : Statement).muted :=
    congrArg (fun s : Statement ↦ { s with queue := [] }) hs
  rw [runBatch_eq, runBatch_eq, hrefusal]
  cases t.batchRefusal? d with
  | some e => simp [Outcome.muted, hempty, hc]
  | none =>
    have hborrow (b : Bool) {c d : Context} (h : c.muted = d.muted) :
        ({ c with borrowed := b } : Context).muted = ({ d with borrowed := b } : Context).muted :=
      congrArg (fun c : Context ↦ { c with borrowed := b }) h
    have hqueue : s.queue = t.queue := eq_of_map_eq (f := Statement.queue) hs fun _ ↦ rfl
    have hscope : s.setup.scope = t.setup.scope :=
      eq_of_map_eq (f := fun s ↦ s.setup.scope) hs fun _ ↦ rfl
    have hrun : (runEntries { s with queue := [] } { c with borrowed := true } s.queue).muted =
        (runEntries { t with queue := [] } { d with borrowed := true } t.queue).muted :=
      (runEntries_of_muted hempty (hborrow true hc) s.queue).trans (by rw [hqueue])
    dsimp only
    generalize runEntries { s with queue := [] } { c with borrowed := true } s.queue = r at hrun ⊢
    generalize runEntries { t with queue := [] } { d with borrowed := true } t.queue = r' at hrun ⊢
    have hcounts : r.counts = r'.counts :=
      eq_of_map_eq (f := BatchRun.counts) hrun fun _ ↦ rfl
    have hlast : r.lastError = r'.lastError :=
      eq_of_map_eq (f := BatchRun.lastError) hrun fun _ ↦ rfl
    have hstatement : r.statement.muted = r'.statement.muted := congrArg BatchRun.statement hrun
    have hcontext := hborrow false (congrArg BatchRun.context hrun)
    rw [hcounts, hlast, hscope]
    cases r'.lastError <;> simp [Outcome.muted, hstatement, hcontext]

end Statement

end SqlSession
