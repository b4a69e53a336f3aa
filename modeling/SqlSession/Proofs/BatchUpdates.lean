import SqlSession.Proofs.Alike
import SqlSession.Proofs.Atomicity

/-!
# A batch and its updates

A batch does what its entries do as updates of their own, one after the other and whatever becomes
of each, and it empties the queue. It answers with all counts when every entry succeeds, and
otherwise with an error that speaks for the last failure and carries an outcome for every entry.
-/

namespace SqlSession

/-- What a batch reports for an entry whose update alone gets the answer. -/
def entryCount : Except SqlError Answer → Int32
  | .ok (.count n) => n
  | _ => failedEntry

/-- The answer of a batch whose entries as updates of their own get the answers. -/
inductive BatchOutcome (answers : List (Except SqlError Answer)) : Except SqlError Answer → Prop
  /-- Every update succeeds. -/
  | complete (h : ∀ a ∈ answers, a.isOk = true) :
    BatchOutcome answers (.ok (.counts (answers.map entryCount)))
  /-- The last update that fails is followed by others that succeed. -/
  | incomplete {earlier later : List (Except SqlError Answer)} {e : SqlError}
      (h : answers = earlier ++ .error e :: later) (hl : ∀ a ∈ later, a.isOk = true) :
    BatchOutcome answers
      (.error (.batchFailure e.message e.state e.native (answers.map entryCount)))

/-- The course of a batch reports the answers that its entries get as updates of their own. -/
structure BatchRun.Reports (r : BatchRun) (answers : List (Except SqlError Answer)) : Prop where
  counts : r.counts = answers.map entryCount
  complete : r.lastError = none → ∀ a ∈ answers, a.isOk = true
  last : ∀ e, r.lastError = some e → ∃ earlier later,
    answers = earlier ++ .error e :: later ∧ ∀ a ∈ later, a.isOk = true

namespace BatchRun.Reports

variable {r : BatchRun} {answers : List (Except SqlError Answer)}

/-- An entry that succeeds comes before the others with its count. -/
theorem ok (h : r.Reports answers) (n : Int32) :
    { r with counts := n :: r.counts }.Reports (.ok (.count n) :: answers) where
  counts := by rw [List.map_cons, ← h.counts]; rfl
  complete hn a ha := by
    rcases List.mem_cons.1 ha with rfl | ha
    · rfl
    · exact h.complete hn a ha
  last e he := by
    obtain ⟨earlier, later, heq, hl⟩ := h.last e he
    exact ⟨.ok (.count n) :: earlier, later, by rw [heq]; rfl, hl⟩

/-- An entry that fails comes before the others with the marker, and speaks for the batch if none
of the others fails. -/
theorem error (h : r.Reports answers) (e : SqlError) (failed : Nat) :
    { r with
      counts := failedEntry :: r.counts
      failed
      lastError := r.lastError <|> some e }.Reports (.error e :: answers) where
  counts := by rw [List.map_cons, ← h.counts]; rfl
  complete hn := by cases hl : r.lastError <;> simp [hl] at hn
  last e' he := by
    cases hl : r.lastError with
    | none =>
      have heq : e = e' := by simpa [hl] using he
      exact ⟨[], answers, by rw [heq]; rfl, h.complete hl⟩
    | some e'' =>
      have heq : e'' = e' := by simpa [hl] using he
      obtain ⟨earlier, later, hsplit, hlater⟩ := h.last e'' hl
      exact ⟨.error e :: earlier, later, by rw [hsplit, heq]; rfl, hlater⟩

/-- A batch answers for its last failure, if there is one. -/
theorem outcome (h : r.Reports answers) :
    BatchOutcome answers (match r.lastError with
      | none => .ok (.counts r.counts)
      | some e => .error (Statement.batchError e r.counts)) := by
  rw [h.counts]
  cases hl : r.lastError with
  | none => exact .complete (h.complete hl)
  | some e =>
    obtain ⟨earlier, later, hsplit, hlater⟩ := h.last e hl
    exact .incomplete hsplit hlater

end BatchRun.Reports

/-- The connection answers no text with a negative update count. -/
def Connection.CountsUp (k : Connection) : Prop :=
  ∀ sql p, k.answer sql = .ok p → p.head.hasRows = false → 0 ≤ p.head.updateCount

/-- The rules alone decide the counts. -/
theorem Connection.CountsUp.of_rules {k k' : Connection} (hk : k.CountsUp)
    (h : k'.rules = k.rules) : k'.CountsUp := by
  intro sql p ha
  apply hk sql p
  rw [← ha, Connection.answer, Connection.answer, h]

namespace Statement

/-- An execution has nothing to do with the queue. -/
theorem attempt_queue (s : Statement) (queue : List String) (c : Context) (kind : StatementKind)
    (sql : String) :
    { s with queue }.attempt c kind sql =
      ⟨(s.attempt c kind sql).result, { (s.attempt c kind sql).statement with queue },
        (s.attempt c kind sql).context⟩ := by
  unfold attempt
  rw [obtain_eq, obtain_eq]
  have hp : { s with queue }.prepare c kind sql = s.prepare c kind sql := rfl
  rw [hp]
  cases s.prepare c kind sql with
  | error e => rfl
  | ok text =>
    have ho : { s with queue }.opening c kind text = s.opening c kind text := rfl
    dsimp only
    rw [ho]
    cases (s.opening c kind text).lock with
    | error e => rfl
    | ok l =>
      have hx : { s with queue }.cleared.exchangeInCatalog l text
          ({ s with queue }.shape kind text) =
          s.cleared.exchangeInCatalog l text (s.shape kind text) := rfl
      dsimp only
      rw [hx]
      generalize s.cleared.exchangeInCatalog l text (s.shape kind text) = x
      obtain ⟨outcome, c'⟩ := x
      cases outcome with
      | error e => rfl
      | ok p =>
        simp only [settle]
        have hb : { s with queue }.cleared.binding = s.cleared.binding := rfl
        rw [hb]
        cases kind.mismatch? (p.bind s.cleared.binding).withoutWarnings <;> rfl

theorem queue_attempt (s : Statement) (c : Context) (kind : StatementKind) (sql : String) :
    (s.attempt c kind sql).statement.queue = s.queue := by
  have hx := s.attempt_course c kind sql
  generalize s.attempt c kind sql = o at hx ⊢
  cases hx <;> rfl

/-- Over a closed connection an execution changes nothing. -/
theorem attempt_closed (s : Statement) {c : Context} (h : c.connection.closed = true)
    (kind : StatementKind) (sql : String) :
    ∃ e, s.attempt c kind sql = ⟨.error e, s, c⟩ := by
  have hx := s.attempt_course c kind sql
  generalize s.attempt c kind sql = o at hx ⊢
  have never {text : String} (hp : s.prepare c kind sql = .ok text) : False := by
    have ho := open_of_prepare hp
    rw [h] at ho
    simp at ho
  cases hx with
  | refused _ => exact ⟨_, rfl⟩
  | lockedOut hp _ => exact (never hp).elim
  | failed hp _ _ => exact (never hp).elim
  | rejected hp _ _ _ => exact (never hp).elim
  | presented hp _ _ _ => exact (never hp).elim

/-- Over a closed connection a batch sends nothing. -/
theorem runEntries_closed (entries : List String) (s : Statement) {c : Context}
    (h : c.connection.closed = true) :
    (s.runEntries c entries).context.connection = c.connection := by
  induction entries generalizing s c with
  | nil => rfl
  | cons sql rest ih =>
    obtain ⟨e, he⟩ := s.attempt_closed h .update sql
    have hk : (s.afterEntry (s.attempt c .update sql)).connection = c.connection := by
      rw [he]
      exact c.connection_log _
    rw [(s.runEntries_cons c sql rest).2, ih _ (by rw [hk, h]), hk]

/-- Why a batch is refused, the first reason that there is. -/
def batchRefusal? (t : Statement) (c : Context) : Option SqlError :=
  if t.closed then some .onClosedStatement
  else if !(t.attached && c.alive) then some .connectionClosed
  else if c.poisoned then some (.internal .lockFailed)
  else if c.connection.readOnly then some .readOnlyViolation
  else none

theorem checkBatch_eq (t : Statement) (c : Context) :
    t.checkBatch c = match t.batchRefusal? c with
      | some e => .error e
      | none => .ok () := by
  unfold checkBatch usable Context.lock batchRefusal?
  by_cases hc : t.closed = true
  · simp [hc, Except.bind]
  by_cases ha : (t.attached && c.alive) = true
  · by_cases hp : c.poisoned = true
    · simp [hc, ha, hp, Except.bind]
    by_cases hr : c.connection.readOnly = true <;> simp [hc, ha, hp, hr, Except.bind]
  · simp [hc, ha, Except.bind]

/-- A batch is refused, or it runs its entries while it holds the connection and answers for
them. -/
theorem runBatch_eq (t : Statement) (c : Context) :
    t.runBatch c =
      match t.batchRefusal? c with
      | some e => ⟨.error e, { t with queue := [] }, c⟩
      | none =>
        let r := { t with queue := [] }.runEntries { c with borrowed := true } t.queue
        let c' := { r.context with borrowed := false }.log
          (t.setup.logger.batch t.id r.counts.length r.failed)
        match r.lastError with
        | none => ⟨.ok r.counts, r.statement, c'⟩
        | some e =>
          ⟨.error (batchError e r.counts), r.statement,
            c'.count t.setup.scope Metrics.addFailedBatch⟩ := by
  unfold runBatch
  dsimp only
  rw [checkBatch_eq]
  have hr : { t with queue := [] }.batchRefusal? c = t.batchRefusal? c := rfl
  rw [hr]
  cases t.batchRefusal? c <;> rfl

/-- A batch empties the queue whatever comes of it. -/
theorem queue_runBatch (t : Statement) (c : Context) : (t.runBatch c).statement.queue = [] := by
  rw [runBatch_eq]
  cases t.batchRefusal? c with
  | some e => rfl
  | none =>
    dsimp only
    split <;> exact runEntries_keeps Statement.queue queue_attempt _ _ _

/-- A batch over a closed connection leaves the connection alone. -/
theorem runBatch_closed (t : Statement) {c : Context} (h : c.connection.closed = true) :
    (t.runBatch c).context.connection = c.connection := by
  have hrun := runEntries_closed t.queue { t with queue := [] }
    (c := { c with borrowed := true }) h
  rw [runBatch_eq]
  cases t.batchRefusal? c with
  | some e => rfl
  | none =>
    dsimp only
    split <;> simpa using hrun

/-- A packet that comes back is the answer to its text, but for the numbers of its hooks. -/
theorem answer_of_replied {k : Connection} {own text : String} {plan : Sql.LimitRoute}
    {p : Packet} (h : k.Replied own plan text (.ok p)) :
    ∃ q, k.answer text = .ok q ∧ p.head.rows = q.head.rows ∧
      p.head.updateCount = q.head.updateCount := by
  generalize hx : Except.ok p = outcome at h
  cases h with
  | barred _ _ => simp at hx
  | stranded _ _ _ _ => simp at hx
  | answered _ ha _ =>
    cases ha with
    | directive _ _ => simp at hx
    | text _ n =>
      cases hq : k.answer text with
      | error e => simp [hq, Except.map] at hx
      | ok q =>
        rw [hq] at hx
        rw [Except.ok.inj hx]
        refine ⟨q, rfl, ?_⟩
        unfold Packet.issue Response.number
        dsimp only
        split <;> exact ⟨rfl, rfl⟩

/-- An update that succeeds gives no negative count where the connection answers with none. -/
theorem updateCount_attempt {s : Statement} {c : Context} {sql : String} {p : Packet}
    (h : (s.attempt c .update sql).result = .ok p) (hn : c.connection.CountsUp) :
    0 ≤ p.head.updateCount := by
  have hx := s.attempt_course c .update sql
  generalize s.attempt c .update sql = o at h hx
  cases hx with
  | refused _ => simp at h
  | lockedOut _ _ => simp at h
  | failed _ _ _ => simp at h
  | rejected _ _ _ _ => simp at h
  | @presented text l c' given hp hl hx hm =>
    obtain ⟨hr, -, -⟩ := replied_of_exchange hp hl hx
    obtain ⟨q, hq, hrows, hcount⟩ := answer_of_replied hr
    have hnone : q.head.hasRows = false := by
      cases hh : q.head.hasRows with
      | false => rfl
      | true =>
        have hgiven : (s.adopt given).head.hasRows = true := by
          rw [← hh]
          simp only [Response.hasRows, ← hrows]
          rfl
        simp [StatementKind.mismatch?, hgiven] at hm
    rw [← Except.ok.inj h]
    have := hn text q hq hnone
    rwa [← hcount] at this

/-- A count that is not negative stays so as a 32-bit integer. -/
theorem narrowCount_nonneg {n : Int64} (h : 0 ≤ n) : 0 ≤ narrowCount n := by
  unfold narrowCount Decimal.toInt32?
  split
  · next hn =>
    have h0 : (0 : Int) ≤ n.toInt := Int64.le_iff_toInt_le.1 h
    have hle : Int32.ofInt 0 ≤ Int32.ofInt n.toInt :=
      (Int32.ofInt_le_iff_le (by decide) (by decide) hn.1 hn.2).2 h0
    rw [Option.getD_some]
    exact hle
  · decide

end Statement

namespace Session

/-- The answers to operations in their order. -/
def answers (s : Session) : List Operation → List (Except SqlError Answer)
  | [] => []
  | op :: rest => (s.step op).1 :: (s.step op).2.answers rest

/-- A text as an update of its own. -/
def updateOf (place : Nat) (sql : String) : Operation := .call place (.update sql none)

/-- An update of its own is an attempt that answers with its count. -/
theorem step_update {s : Session} {place : Nat} {t : Statement}
    (ht : s.statement? place = some t) (sql : String) :
    s.step (updateOf place sql) =
      ((t.attempt s.context .update sql).result.map fun p ↦
          .count (Statement.narrowCount p.head.updateCount),
        { s with
          context := (t.attempt s.context .update sql).context
          statements :=
            s.statements.set place (some (t.attempt s.context .update sql).statement) }) := by
  have hp : t.perform s.context (.update sql none) =
      ⟨(t.attempt s.context .update sql).result.map fun p ↦
          .count (Statement.narrowCount p.head.updateCount),
        (t.attempt s.context .update sql).statement,
        (t.attempt s.context .update sql).context⟩ := by
    change (t.update s.context sql).answer .count = _
    rw [Statement.update_eq]
    cases h : (t.attempt s.context .update sql).result <;>
      simp [Outcome.map, Outcome.answer, Except.map, h]
  rw [updateOf, step_call_eq ht, hp]

theorem statement?_step_update {s : Session} {place : Nat} {t : Statement}
    (ht : s.statement? place = some t) (sql : String) :
    (s.step (updateOf place sql)).2.statement? place =
      some (t.attempt s.context .update sql).statement := by
  rw [step_update ht, statement?_eq_some]
  exact List.getElem?_set_self (List.getElem?_eq_some_iff.1 (statement?_eq_some.1 ht)).1

/-- What the entries of a batch do and report, their texts do as updates of their own, for as long
as the application holds the connection. -/
theorem runEntries_updates (entries : List String) {s : Session} {place : Nat} {t : Statement}
    (ht : s.statement? place = some t) {c : Context} (hc : c.Alike s.context)
    (hh : ({ t with queue := [] }.runEntries c entries).context.held = true) :
    ∃ t', (s.run (entries.map (updateOf place))).statements =
        s.statements.set place (some t') ∧
      ({ t with queue := [] }.runEntries c entries).statement = { t' with queue := [] } ∧
      ({ t with queue := [] }.runEntries c entries).context.Alike
        (s.run (entries.map (updateOf place))).context ∧
      ({ t with queue := [] }.runEntries c entries).Reports
        (s.answers (entries.map (updateOf place))) := by
  induction entries generalizing s t c with
  | nil =>
    exact ⟨t, (set_statement ht).symm, rfl, hc, rfl, by simp [answers],
      by simp [Statement.runEntries]⟩
  | cons sql rest ih =>
    have hcons := { t with queue := [] }.runEntries_cons c sql rest
    have heq := { t with queue := [] }.runEntries_cons_eq c sql rest
    generalize hu : ({ t with queue := [] } : Statement) = u at hh hcons heq ⊢
    rw [hcons.2] at hh
    -- the application holds the connection when the first entry is over
    have hfirst : (u.attempt c .update sql).context.held = true := by
      have hafter := Context.held_law.runEntries rest _ _ hh
      unfold Statement.afterEntry at hafter
      split at hafter
      · exact hafter
      · exact Context.held_law.log _ _ hafter
    obtain ⟨hres, hst, hctx⟩ := Statement.attempt_alike hc hfirst
    rw [← hu, t.attempt_queue [] s.context, hu] at hres hst hctx
    dsimp only at hres hst hctx
    have hstep := step_update ht sql
    have hc' : (u.afterEntry (u.attempt c .update sql)).Alike
        (s.step (updateOf place sql)).2.context := by
      rw [hstep]
      unfold Statement.afterEntry
      split
      · exact hctx
      · exact (Context.Alike.logged _ _).symm.trans hctx
    rw [← hst] at hh
    obtain ⟨t', hs', hlast, halike, hrep⟩ := ih (statement?_step_update ht sql) hc' hh
    rw [hst] at hlast halike hrep
    refine ⟨t', ?_, hcons.1.trans hlast, hcons.2 ▸ halike, ?_⟩
    · rw [List.map_cons, run, List.foldl_cons, ← run, hs', hstep, List.set_set]
    · rw [List.map_cons, answers, heq]
      dsimp only
      have hanswer : (s.step (updateOf place sql)).1 =
          (u.attempt c .update sql).result.map fun p ↦
            .count (Statement.narrowCount p.head.updateCount) := by
        rw [hstep, hres]
      rw [hanswer]
      cases (u.attempt c .update sql).result with
      | ok p => exact hrep.ok _
      | error e => exact hrep.error e _

/-- Updates answer with counts, none of them negative where the connection answers with none. -/
theorem count_of_answers {entries : List String} {s : Session} {place : Nat} {t : Statement}
    (ht : s.statement? place = some t) {a : Except SqlError Answer}
    (ha : a ∈ s.answers (entries.map (updateOf place))) {v : Answer} (hv : a = .ok v) :
    ∃ n, v = .count n ∧ (s.context.connection.CountsUp → 0 ≤ n) := by
  induction entries generalizing s t with
  | nil => simp [answers] at ha
  | cons sql rest ih =>
    have hstep := step_update ht sql
    rcases List.mem_cons.1 ha with rfl | ha
    · rw [hstep] at hv
      cases hr : (t.attempt s.context .update sql).result with
      | error e => simp [hr, Except.map] at hv
      | ok p =>
        rw [hr] at hv
        refine ⟨_, (Except.ok.inj hv).symm, fun hn ↦ ?_⟩
        exact Statement.narrowCount_nonneg (Statement.updateCount_attempt hr hn)
    · obtain ⟨n, hn, hup⟩ := ih (statement?_step_update ht sql) ha
      refine ⟨n, hn, fun h ↦ hup (h.of_rules ?_)⟩
      rw [hstep]
      exact Context.rules_law.attempt t s.context .update sql

/-- There are as many answers as operations. -/
theorem length_answers (s : Session) (ops : List Operation) :
    (s.answers ops).length = ops.length := by
  induction ops generalizing s with
  | nil => rfl
  | cons op rest ih => rw [answers, List.length_cons, ih, List.length_cons]

/-- A batch does what updates of their own do, and answers for them. -/
structure DoesUpdates (s : Session) (place : Nat) (t : Statement) (updates : List Operation)
    (b : Except SqlError Answer × Session) : Prop where
  /-- The updates change their statement only, and the batch leaves it as they do, but for its
  queue. -/
  statements : ∃ t', (s.run updates).statements = s.statements.set place (some t') ∧
    b.2.statements = s.statements.set place (some { t' with queue := [] })
  /-- The batch leaves connection, metrics and hooks as the updates do, but counts a failed batch if
  it fails. -/
  alike : Context.Alike
    (if b.1.isOk then (s.run updates).context
      else (s.run updates).context.count t.setup.scope Metrics.addFailedBatch)
    b.2.context
  failedBatches : b.2.context.failedBatches t.setup.scope =
    s.context.failedBatches t.setup.scope + if b.1.isOk then 0 else 1
  /-- The batch succeeds if all updates do, and fails as the last of them that fails. -/
  outcome : BatchOutcome (s.answers updates) b.1
  length : (s.answers updates).length = t.queue.length
  /-- An update that succeeds answers with a count. -/
  counts : ∀ a ∈ s.answers updates, ∀ v, a = .ok v → ∃ n, v = .count n
  /-- Where no count is negative, the marker tells the entries that failed. -/
  marks : s.context.connection.CountsUp →
    ∀ a ∈ s.answers updates, (entryCount a = failedEntry ↔ a.isOk = false)

/-- A batch that is not refused, and for which the application keeps the connection, does what the
updates do that its entries are. -/
theorem runBatch_doesUpdates {s : Session} {place : Nat} {t : Statement}
    (ht : s.statement? place = some t) (hr : t.batchRefusal? s.context = none)
    (hh : (t.runBatch s.context).context.held = true) :
    s.DoesUpdates place t (t.queue.map (updateOf place)) (s.step (.call place .runBatch)) := by
  have hstep := step_call_eq ht .runBatch
  change s.step (.call place .runBatch) =
    ((t.runBatch s.context).result.map .counts,
      { s with
        context := (t.runBatch s.context).context
        statements := s.statements.set place (some (t.runBatch s.context).statement) }) at hstep
  rw [hstep]
  have hrun := t.runBatch_eq s.context
  rw [hr] at hrun
  dsimp only at hrun
  have hupdates := runEntries_updates t.queue ht
    (Context.Alike.borrow s.context true).symm
  have hcount := Context.failedBatches_law.runEntries t.queue { t with queue := [] }
    { s.context with borrowed := true }
  generalize { t with queue := [] }.runEntries { s.context with borrowed := true } t.queue = r
    at hrun hupdates hcount
  -- what follows the entries leaves all but the journal and the count of failed batches alone
  let c' := { r.context with borrowed := false }.log
    (t.setup.logger.batch t.id r.counts.length r.failed)
  have hlog : r.context.Alike c' := (Context.Alike.borrow _ false).trans (.logged _ _)
  have hfailed : c'.failedBatches = s.context.failedBatches :=
    (Context.failedBatches_law.log _ _).trans hcount
  have length := s.length_answers (t.queue.map (updateOf place))
  rw [List.length_map] at length
  have counts (a) (ha : a ∈ s.answers (t.queue.map (updateOf place))) (v) (hv : a = .ok v) :
      ∃ n, v = .count n := (count_of_answers ht ha hv).imp fun _ h ↦ h.1
  have marks (hn : s.context.connection.CountsUp) (a)
      (ha : a ∈ s.answers (t.queue.map (updateOf place))) :
      entryCount a = failedEntry ↔ a.isOk = false := by
    cases a with
    | error e => exact ⟨fun _ ↦ rfl, fun _ ↦ rfl⟩
    | ok v =>
      obtain ⟨n, rfl, hpos⟩ := count_of_answers ht ha rfl
      have hne : n ≠ failedEntry := by
        rintro rfl
        exact absurd (hpos hn) (by decide)
      simp [entryCount, hne, Except.isOk, Except.toBool]
  cases hl : r.lastError with
  | none =>
    rw [hl] at hrun
    rw [hrun] at hh ⊢
    have hheld : r.context.held = true := hlog.held ▸ hh
    obtain ⟨t', hs', hst, halike, hrep⟩ := hupdates hheld
    have hout := hrep.outcome
    rw [hl] at hout
    exact ⟨⟨t', hs', by rw [hst]⟩, halike.symm.trans hlog, congrFun hfailed _, hout, length,
      counts, marks⟩
  | some e =>
    rw [hl] at hrun
    rw [hrun] at hh ⊢
    have hheld : r.context.held = true := by
      rw [← hlog.held]
      cases hscope : t.setup.scope <;> rw [hscope] at hh <;> exact hh
    obtain ⟨t', hs', hst, halike, hrep⟩ := hupdates hheld
    have hout := hrep.outcome
    rw [hl] at hout
    have hone : (c'.count t.setup.scope Metrics.addFailedBatch).failedBatches t.setup.scope =
        s.context.failedBatches t.setup.scope + 1 := by
      rw [← hfailed]
      cases t.setup.scope <;> rfl
    exact ⟨⟨t', hs', by rw [hst]⟩, (halike.symm.trans hlog).count _ _, hone, hout, length,
      counts, marks⟩

/-- A batch empties the queue whatever comes of it. One that is refused changes nothing else, and
one over a closed connection sends nothing. Any other batch, for which the application keeps the
connection, does what the updates do that its entries are. -/
theorem batch_is_updates {s : Session} {place : Nat} {t : Statement}
    (ht : s.statement? place = some t) :
    let b := s.step (.call place .runBatch)
    (∃ t', b.2.statement? place = some t' ∧ t'.queue = []) ∧
    (∀ e, t.batchRefusal? s.context = some e → b = (.error e,
      { s with statements := s.statements.set place (some { t with queue := [] }) })) ∧
    (s.context.connection.closed = true → b.2.context.connection = s.context.connection) ∧
    (t.batchRefusal? s.context = none → b.2.context.held = true →
      s.DoesUpdates place t (t.queue.map (updateOf place)) b) := by
  intro b
  obtain ⟨-, hc, hs⟩ := step_call ht .runBatch
  refine ⟨⟨_, hs, t.queue_runBatch s.context⟩, ?_, ?_, ?_⟩
  · intro e he
    have hrun := t.runBatch_eq s.context
    rw [he] at hrun
    have hp : t.perform s.context .runBatch = ⟨.error e, { t with queue := [] }, s.context⟩ := by
      change (t.runBatch s.context).answer .counts = _
      rw [hrun]
      rfl
    change s.step (.call place .runBatch) = _
    rw [step_call_eq ht, hp]
  · intro hclosed
    change (s.step (.call place .runBatch)).2.context.connection = _
    rw [hc]
    exact t.runBatch_closed hclosed
  · intro hr hh
    have hheld : (t.runBatch s.context).context.held = true := by
      change (s.step (.call place .runBatch)).2.context.held = true at hh
      rw [hc] at hh
      exact hh
    exact runBatch_doesUpdates ht hr hheld

/-- The first of two entries fails, and the other one is carried out. -/
theorem batch_is_updates_failing :
    let k : Connection :=
      { catalog := "main", rules := [⟨"missing", fun _ ↦ .error (Connection.unknownCatalog "x")⟩] }
    let s := (start k).run
      [.make .plain {}, .call 0 (.enqueue "UPDATE missing"), .call 0 (.enqueue "UPDATE t")]
    let b := s.step (.call 0 .runBatch)
    ∃ t, s.statement? 0 = some t ∧ t.queue = ["UPDATE missing", "UPDATE t"] ∧
      t.batchRefusal? s.context = none ∧ b.2.context.held = true ∧
      b.1 = .error
        (.batchFailure "Unknown database 'x'" (.ascii '4' '2' '0' '0' '0') 1049 [-3, 1]) ∧
      s.DoesUpdates 0 t [updateOf 0 "UPDATE missing", updateOf 0 "UPDATE t"] b := by
  intro k s b
  have ht : s.statement? 0 = some ((s.statement? 0).get rfl) := (Option.some_get rfl).symm
  have hr : ((s.statement? 0).get rfl).batchRefusal? s.context = none := by decide +kernel
  have hh : b.2.context.held = true := by decide +kernel
  have hq : ((s.statement? 0).get rfl).queue = ["UPDATE missing", "UPDATE t"] := by
    decide +kernel
  have hupdates := (batch_is_updates ht).2.2.2 hr hh
  rw [hq] at hupdates
  exact ⟨_, ht, hq, hr, hh, by decide +kernel, hupdates⟩

end Session

end SqlSession
