import SqlSession.Proofs.Alike
import SqlSession.Proofs.FirstLetter

/-!
# The ways to execute a text

Executing any text, a query and an update go the same way up to the packet. A text that is taken for
a query is sent alike by the first two, one that is not is sent alike by the first and the third but
for the shape of its rows. So they come to the same where the packet is of the sort that is asked
for, and where all of them fail.
-/

namespace SqlSession

/-- The command as an update sends it: the text of a statement asks for no rows of its own shape. -/
def Command.asUpdate (cmd : Command) : Command :=
  if cmd.purpose = .text then { cmd with concurrency := .readOnly, streaming := false } else cmd

/-- The record of a command that is sent as an update sends it. -/
def Dispatch.asUpdate (d : Dispatch) : Dispatch := { d with command := d.command.asUpdate }

/-- The shape of an update that is classified alike. -/
def Shape.asUpdate (f : Shape) : Shape := ⟨f.query, false, .readOnly⟩

/-- The connection as if all its commands but the given number of first ones were sent as updates
send them. -/
def Connection.recast (n : Nat) (k : Connection) : Connection :=
  { k with dispatches := k.dispatches.take n ++ (k.dispatches.drop n).map Dispatch.asUpdate }

/-- The surroundings with their connection recast. -/
def Context.recast (n : Nat) (c : Context) : Context :=
  { c with connection := c.connection.recast n }

namespace Connection

variable {n : Nat} {k : Connection}

/-- The first commands are as they were. -/
theorem recast_length (k : Connection) : k.recast k.dispatches.length = k := by
  simp [recast]

/-- A recast connection answers alike and records commands as updates send them. -/
theorem recast_send (hn : n ≤ k.dispatches.length) (cmd : Command) :
    (k.recast n).send cmd.asUpdate = ((k.send cmd).1, (k.send cmd).2.recast n) := by
  have hsql : cmd.asUpdate.sql = cmd.sql := by
    unfold Command.asUpdate
    split <;> rfl
  have hrecord (d : Dispatch) :
      (k.dispatches ++ [d]).take n ++ ((k.dispatches ++ [d]).drop n).map Dispatch.asUpdate =
        (k.dispatches.take n ++ (k.dispatches.drop n).map Dispatch.asUpdate) ++ [d.asUpdate] := by
    rw [List.take_append_of_le_length hn, List.drop_append_of_le_length hn, List.map_append,
      List.append_assoc, List.map_singleton]
  have hclosed : (k.recast n).closed = k.closed := rfl
  have hanswer : (k.recast n).answer cmd.sql = k.answer cmd.sql := rfl
  unfold send
  rw [hsql, hclosed, hanswer]
  split
  · rfl
  · cases k.answer cmd.sql with
    | ok p =>
      unfold recast
      dsimp only
      rw [hrecord]
      rfl
    | error e =>
      unfold recast
      dsimp only
      rw [hrecord]
      rfl

/-- A recast connection selects catalogs alike. -/
theorem recast_selectCatalog (n : Nat) (k : Connection) (name : String) :
    (k.recast n).selectCatalog name = (k.selectCatalog name).map (recast n) := by
  have hmissing : (k.recast n).missingCatalog = k.missingCatalog := rfl
  unfold selectCatalog
  rw [hmissing]
  split <;> rfl

/-- A command only adds to the records. -/
theorem length_send (k : Connection) (cmd : Command) :
    k.dispatches.length ≤ (k.send cmd).2.dispatches.length := by
  unfold send
  split
  · exact Nat.le_refl _
  · split <;> simp

end Connection

namespace Context

variable {n : Nat}

theorem recast_note (c : Context) (e : Event) : (c.recast n).note e = (c.note e).recast n := by
  unfold note
  dsimp only
  split
  · next f _ => cases f <;> rfl
  · rfl

theorem recast_noteAll (c : Context) (es : List Event) :
    (c.recast n).noteAll es = (c.noteAll es).recast n := by
  induction es generalizing c with
  | nil => rfl
  | cons e rest ih =>
    rw [noteAll, List.foldl_cons, recast_note]
    exact ih (c.note e)

theorem recast_log (c : Context) (rs : List Log.Record) :
    (c.recast n).log rs = (c.log rs).recast n := recast_noteAll c _

theorem recast_release (c : Context) (p : Packet) :
    (c.recast n).release p = (c.release p).recast n := recast_noteAll c _

theorem recast_count (c : Context) (scope : Metrics.Scope) (f : Metrics → Metrics) :
    (c.recast n).count scope f = (c.count scope f).recast n := by
  cases scope <;> rfl

theorem recast_send {c : Context} (hn : n ≤ c.connection.dispatches.length) (cmd : Command) :
    (c.recast n).send cmd.asUpdate = ((c.send cmd).1, (c.send cmd).2.recast n) := by
  have hsend := Connection.recast_send hn cmd
  have hconnection : (c.recast n).connection = c.connection.recast n := rfl
  unfold send
  rw [hconnection, hsend]
  rfl

end Context

namespace Statement

variable {n : Nat} {c : Context}

/-- Over a recast connection a text is sent alike as by an update. -/
theorem sendLimited_recast (hn : n ≤ c.connection.dispatches.length) (s : Statement)
    (text : String) (f : Shape) :
    s.sendLimited (c.recast n) text f.asUpdate =
      ((s.sendLimited c text f).1, (s.sendLimited c text f).2.recast n) := by
  have hroute : s.route (c.recast n) text f.asUpdate = s.route c text f := rfl
  have htext (cap : Int32) : command text cap f.asUpdate = (command text cap f).asUpdate := rfl
  unfold route at hroute
  unfold sendLimited
  dsimp only
  rw [hroute]
  split
  · rw [htext]
    exact Context.recast_send hn _
  · next directive _ =>
    have hack : limitCommand directive = (limitCommand directive).asUpdate := rfl
    rw [Context.recast_log, Context.recast_count, hack, Context.recast_send (by simpa using hn),
      ← hack]
    have hlen := Connection.length_send (s.announcing c directive).connection
      (limitCommand directive)
    have hsend : (s.announcing c directive).connection.send (limitCommand directive) =
        (((s.announcing c directive).send (limitCommand directive)).1,
          ((s.announcing c directive).send (limitCommand directive)).2.connection) := rfl
    rw [hsend] at hlen
    unfold announcing at hlen
    generalize Context.send _ (limitCommand directive) = x at hlen ⊢
    obtain ⟨outcome, c'⟩ := x
    have hn' : n ≤ c'.connection.dispatches.length := Nat.le_trans hn (by simpa using hlen)
    cases outcome with
    | error e => rfl
    | ok ack =>
      dsimp only
      rw [Context.recast_release, htext]
      exact Context.recast_send (by simpa using hn') _

/-- Over a recast connection a text is exchanged alike as by an update. -/
theorem exchange_recast (hn : n ≤ c.connection.dispatches.length) (s : Statement)
    (text : String) (f : Shape) :
    s.exchangeInCatalog (c.recast n) text f.asUpdate =
      ((s.exchangeInCatalog c text f).1, (s.exchangeInCatalog c text f).2.recast n) := by
  have hformer : (c.recast n).connection.catalog = c.connection.catalog := rfl
  have hconnection (d : Context) : (d.recast n).connection = d.connection.recast n := rfl
  unfold exchangeInCatalog
  dsimp only
  rw [hformer, hconnection, Connection.recast_selectCatalog]
  split
  · exact sendLimited_recast hn s text f
  · cases hs : c.connection.selectCatalog s.catalog with
    | error e => rfl
    | ok k =>
      have hk : n ≤ k.dispatches.length := by
        rw [(Connection.selectCatalog_ok hs).2]
        exact hn
      have hsend := sendLimited_recast (c := { c with connection := k }) hk s text f
      have hselected : ({ c.recast n with connection := k.recast n } : Context) =
          ({ c with connection := k } : Context).recast n := rfl
      simp only [Except.map]
      rw [hselected, hsend]
      generalize s.sendLimited { c with connection := k } text f = x
      obtain ⟨outcome, d⟩ := x
      dsimp only
      rw [hconnection, Connection.recast_selectCatalog]
      cases d.connection.selectCatalog c.connection.catalog with
      | ok k' => rfl
      | error e =>
        simp only [Except.map]
        rw [Context.recast_log]
        cases outcome with
        | error e' => rfl
        | ok p =>
          dsimp only
          rw [Context.recast_release]

/-- What an execution of a kind comes to beside that of any text from the same state, where the
connection is the same up to `g`. -/
inductive Beside (g : Connection → Connection) (kind : StatementKind) :
    Outcome Packet → Outcome Packet → Prop
  /-- Both come to the same. -/
  | same {result : Except SqlError Packet} {s : Statement} {c d : Context}
      (hm : ∀ p, result = .ok p → kind.mismatch? p = none)
      (hk : d.connection = g c.connection) (hr : d.released = c.released) :
    Beside g kind ⟨result, s, c⟩ ⟨result, s, d⟩
  /-- The packet is not of the sort of the kind. -/
  | rejected {p : Packet} {s : Statement} {c : Context} {e : SqlError} {o : Outcome Packet}
      (hm : kind.mismatch? p = some e) (he : o.result = .error e) :
    Beside g kind ⟨.ok p, s, c⟩ o

/-- Executing any text and an execution of a kind beside it succeed together where the packet is of
the sort of the kind, and fail together with the same error. Then they leave the same. -/
theorem Beside.agree {α : Type} {g : Connection → Connection} {kind : StatementKind}
    {o o' : Outcome Packet} (h : Beside g kind o o') {wanted : Bool}
    (hw : ∀ p, kind.mismatch? p = none ↔ p.head.hasRows = wanted) (f : Packet → α) :
    let any := o.map fun p ↦ p.head.hasRows
    let other := o'.map f
    (any.result = .ok wanted ↔ ∃ a, other.result = .ok a) ∧
      (∀ e, any.result = .error e → other.result = .error e) ∧
      (any.result ≠ .ok (!wanted) →
        other.statement = any.statement ∧
          other.context.connection = g any.context.connection ∧
          other.context.released = any.context.released) := by
  cases h with
  | @same result s c d hm hk hr =>
    cases result with
    | error e => simpa [Outcome.map, Except.map] using ⟨hk, hr⟩
    | ok p =>
      have hrows := (hw p).1 (hm p rfl)
      simpa [Outcome.map, Except.map, hrows] using ⟨hk, hr⟩
  | @rejected p s c e o hm he =>
    have hrows : p.head.hasRows = !wanted := by
      refine Bool.eq_not.2 fun hsort ↦ ?_
      rw [(hw p).2 hsort] at hm
      simp at hm
    simp [Outcome.map, Except.map, hrows, he]

/-- Two executions come to the same, but for packets of the wrong sort, if their checks and their
exchanges do. -/
theorem attempt_beside {g : Connection → Connection} {s : Statement} {c : Context}
    {kind : StatementKind} {sql : String} (hg : g c.connection = c.connection)
    (hp : s.prepare c kind sql = s.prepare c .execute sql)
    (hx : ∀ text l, s.prepare c .execute sql = .ok text → l.connection = c.connection →
      ∃ outcome a b,
        s.cleared.exchangeInCatalog l text (s.shape .execute text) = (outcome, a) ∧
        s.cleared.exchangeInCatalog l text (s.shape kind text) = (outcome, b) ∧
        b.connection = g a.connection ∧ b.released = a.released) :
    Beside g kind (s.attempt c .execute sql) (s.attempt c kind sql) := by
  rw [attempt_eq, attempt_eq, hp]
  cases hprep : s.prepare c .execute sql with
  | error e => exact .same (by simp) hg.symm rfl
  | ok text =>
    dsimp only
    have hopen (kind : StatementKind) : (s.opening c kind text).connection = c.connection := by
      simp [opening]
    -- what is logged for the text names the kind
    have halike : (s.opening c .execute text).Alike (s.opening c kind text) :=
      (Context.Alike.logged _ _).symm.trans (Context.Alike.logged _ _)
    rcases halike.lock with ⟨e, hl, hm⟩ | ⟨l, m, hl, hm, hlm⟩
    · rw [hl, hm]
      exact .same (by simp) (by rw [hopen, hopen, hg]) halike.released
    · rw [hl, hm]
      obtain ⟨outcome, a, b, ha, hb, hk, hr⟩ := hx text l hprep (connection_of_opening hl)
      have hpair := hlm.exchange s.cleared text (s.shape kind text)
      rw [hb] at hpair
      dsimp only
      rw [ha]
      generalize s.cleared.exchangeInCatalog m text (s.shape kind text) = y at hpair ⊢
      cases hpair with
      | mk outcome hbd =>
        have hk' := hbd.connection.trans hk
        have hr' := hbd.released.trans hr
        cases outcome with
        | error e => exact .same (by simp) (by simpa using hk') (by simpa using hr')
        | ok p =>
          have hany : StatementKind.execute.mismatch? (s.adopt p) = none := rfl
          unfold conclude
          dsimp only
          rw [hany]
          cases hsort : kind.mismatch? (s.adopt p) with
          | some e => exact .rejected hsort rfl
          | none =>
            refine .same (fun q hq ↦ ?_) (by simpa using hk') (by simpa using hr')
            rw [← Except.ok.inj hq]
            exact hsort

/-- The checks of an execution are those of another one over a connection that lets both in or
neither. -/
theorem prepare_eq_of_access {s : Statement} {c : Context} {kind kind' : StatementKind}
    {sql : String} (h : c.connection.readOnly = true →
      kind.allowedReadOnly sql = kind'.allowedReadOnly sql) :
    s.prepare c kind sql = s.prepare c kind' sql := by
  have ha : checkAccess c kind sql = checkAccess c kind' sql := by
    unfold checkAccess
    cases hl : c.lock with
    | error e => rfl
    | ok l =>
      rw [Except.bind, Except.bind, Context.connection_lock hl]
      cases hr : c.connection.readOnly with
      | false => rfl
      | true => rw [h hr]
  rw [prepare, prepare, ha]

/-- A text that is taken for a query is executed alike as any text and as a query. -/
theorem query_beside_execute {s : Statement} (hs : s.setup.escaper = Sql.expandText) (c : Context)
    {sql : String} (hq : Sql.startsQuery sql = true) :
    Beside (fun k ↦ k) .query (s.attempt c .execute sql) (s.attempt c .query sql) := by
  refine attempt_beside rfl (prepare_eq_of_access fun _ ↦ hq.symm) fun text l hp _ ↦ ?_
  have htext : Sql.startsQuery text = true := by
    rw [Sql.startsQuery_iff, firstLetter?_expanded hs (expanded_of_prepare hp) hq,
      ← Sql.startsQuery_iff]
    exact hq
  have hshape : s.shape .query text = s.shape .execute text := by
    simp [shape, htext]
  rw [hshape]
  exact ⟨_, _, _, rfl, rfl, rfl, rfl⟩

/-- A text that is not taken for a query is executed alike as any text and as an update, but for the
shape of rows that is asked for. -/
theorem update_beside_execute {s : Statement} {c : Context} {sql text : String}
    (hx : s.expanded sql = .ok text) (hq : Sql.startsQuery text = false)
    (hr : c.connection.readOnly = false) :
    Beside (.recast c.connection.dispatches.length) .update (s.attempt c .execute sql)
      (s.attempt c .update sql) := by
  refine attempt_beside c.connection.recast_length (prepare_eq_of_access fun h ↦ ?_)
    fun text' l hp hl ↦ ?_
  · rw [hr] at h
    simp at h
  · obtain rfl := Except.ok.inj (hx.symm.trans (expanded_of_prepare hp))
    have hshape : s.shape .update text = (s.shape .execute text).asUpdate := by
      simp [shape, Shape.asUpdate, hq]
    have hrecast : l.recast c.connection.dispatches.length = l := by
      rw [Context.recast, hl, Connection.recast_length, ← hl]
    have hexchange := exchange_recast (Nat.le_of_eq (by rw [hl])) s.cleared text
      (s.shape .execute text)
    rw [hrecast, ← hshape] at hexchange
    exact ⟨_, _, _, rfl, hexchange, rfl, rfl⟩

/-- Executing any text agrees with a query on a text that is taken for one, and with an update on a
text that is not and over a connection that can be written. They succeed together where the packet
is of the sort that is asked for and fail together with the same error. Then they leave the same
statement and the same connection, but for the shape of rows in the record of an update. -/
theorem entry_points_agree {t : Statement} (he : t.setup.escaper = Sql.expandText) (c : Context)
    (sql : String) :
    let any := t.execute c sql
    let rows := t.query c sql
    let count := t.largeUpdate c sql
    (Sql.startsQuery sql = true →
      (any.result = .ok true ↔ ∃ p, rows.result = .ok p) ∧
      (∀ e, any.result = .error e → rows.result = .error e) ∧
      (any.result ≠ .ok false →
        rows.statement = any.statement ∧ rows.context.connection = any.context.connection ∧
          rows.context.released = any.context.released)) ∧
    ∀ text, t.expanded sql = .ok text → Sql.startsQuery text = false →
      c.connection.readOnly = false →
        (any.result = .ok false ↔ ∃ n, count.result = .ok n) ∧
        (∀ e, any.result = .error e → count.result = .error e) ∧
        (any.result ≠ .ok true →
          count.statement = any.statement ∧
            count.context.connection =
              any.context.connection.recast c.connection.dispatches.length ∧
            count.context.released = any.context.released) := by
  intro any rows count
  refine ⟨fun hq ↦ ?_, fun text hx hq hr ↦ ?_⟩
  · have hb := query_beside_execute he c hq
    simp only [any, rows]
    rw [execute_eq, query_eq]
    exact hb.agree (by simp [StatementKind.mismatch?]) Packet.withoutNext
  · have hb := update_beside_execute hx hq hr
    simp only [any, count]
    rw [execute_eq, largeUpdate_eq]
    exact hb.agree (by simp [StatementKind.mismatch?]) fun p ↦ p.head.updateCount

/-- A statement that asks for rows one by one queries and updates. -/
theorem entry_points_agree_streaming :
    let t : Statement :=
      { id := 1, catalog := "main", settings := { maxFieldSize := 65535, fetchSize := streamRows } }
    let c : Context := { connection := { catalog := "main" } }
    let streamed (d : Context) : List Bool :=
      d.connection.dispatches.map fun x ↦ x.command.streaming
    ((t.execute c "SELECT 1").result = .ok true ∧ (∃ p, (t.query c "SELECT 1").result = .ok p) ∧
      (t.query c "SELECT 1").statement = (t.execute c "SELECT 1").statement ∧
      (t.query c "SELECT 1").context.connection = (t.execute c "SELECT 1").context.connection ∧
      streamed (t.execute c "SELECT 1").context = [true]) ∧
    (t.execute c "UPDATE t").result = .ok false ∧
      (∃ n, (t.largeUpdate c "UPDATE t").result = .ok n) ∧
      (t.largeUpdate c "UPDATE t").statement = (t.execute c "UPDATE t").statement ∧
      streamed (t.execute c "UPDATE t").context = [true] ∧
      streamed (t.largeUpdate c "UPDATE t").context = [false] := by
  intro t c streamed
  have hq : (t.execute c "SELECT 1").result = .ok true := by decide +kernel
  have hu : (t.execute c "UPDATE t").result = .ok false := by decide +kernel
  have hx : t.expanded "UPDATE t" = .ok "UPDATE t" := by decide +kernel
  obtain ⟨hrows, -, hsame⟩ := (entry_points_agree (t := t) rfl c "SELECT 1").1 (by decide +kernel)
  obtain ⟨hcount, -, hsame'⟩ :=
    (entry_points_agree (t := t) rfl c "UPDATE t").2 _ hx (by decide +kernel) rfl
  obtain ⟨hs, hk, -⟩ := hsame (by rw [hq]; simp)
  obtain ⟨hs', hk', -⟩ := hsame' (by rw [hu]; simp)
  have hcast : ((t.execute c "UPDATE t").context.connection.recast 0).dispatches.map
      (fun x ↦ x.command.streaming) = [false] := by decide +kernel
  refine ⟨⟨hq, hrows.1 hq, hs, hk, by decide +kernel⟩, hu, hcount.1 hu, hs', by decide +kernel, ?_⟩
  simp only [streamed]
  rw [hk']
  exact hcast

end Statement

end SqlSession
