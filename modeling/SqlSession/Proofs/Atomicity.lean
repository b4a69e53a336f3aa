import SqlSession.Proofs.Hooks
import SqlSession.Proofs.ResultChain

/-!
# Failed executions

An execution that its checks refuse changes nothing at all. One that fails behind its checks has
closed the current and the pending result and holds none; of the rest of the statement only the
warnings are forgotten, or they and the last key are those of a packet that was rejected for its
sort.
-/

namespace SqlSession

/-- What comes of a text that is sent behind the directive of a plan, if the plan has one. -/
inductive Answered (answer : String → Except SqlError Packet) (plan : Sql.LimitRoute)
    (text : String) : Except SqlError Packet → Prop
  /-- The directive is answered with an error. -/
  | directive {directive : String} {e : SqlError} (hd : plan.directive? = some directive)
      (ha : answer directive = .error e) :
    Answered answer plan text (.error e)
  /-- The directive is answered with a packet. The answer to the text comes back. -/
  | text (hd : ∀ d, plan.directive? = some d → ∃ ack, answer d = .ok ack) (n : Nat) :
    Answered answer plan text ((answer text).map fun p ↦ (p.issue n).1)

/-- What comes of a text that is sent in a catalog. -/
inductive Connection.Replied (k : Connection) (own : String) (plan : Sql.LimitRoute)
    (text : String) : Except SqlError Packet → Prop
  /-- The catalog cannot be selected. -/
  | barred (h : k.catalog ≠ own) (hm : k.missingCatalog = some own) :
    Replied k own plan text (.error (unknownCatalog own))
  /-- The answer comes back. One that is a packet needs the former catalog again. -/
  | answered {outcome : Except SqlError Packet}
      (hs : k.catalog = own ∨ k.missingCatalog ≠ some own)
      (hx : Answered k.answer plan text outcome)
      (hr : outcome.isOk = true → k.catalog = own ∨ k.missingCatalog ≠ some k.catalog) :
    Replied k own plan text outcome
  /-- The former catalog cannot be selected again behind a packet. -/
  | stranded {p : Packet} (h : k.catalog ≠ own) (hs : k.missingCatalog ≠ some own)
      (hx : Answered k.answer plan text (.ok p)) (hm : k.missingCatalog = some k.catalog) :
    Replied k own plan text (.error (unknownCatalog k.catalog))

namespace Context

/-- An open connection answers by its rules and numbers the hooks of the packet. -/
theorem send_answer {c : Context} (ho : c.connection.closed = false) (cmd : Command) :
    (c.send cmd).1 =
      (c.connection.answer cmd.sql).map fun p ↦ (p.issue c.connection.issued).1 := by
  unfold send Connection.send
  rw [if_neg (by simp [ho])]
  cases c.connection.answer cmd.sql <;> rfl

/-- Sending a command runs no hook. -/
@[simp]
theorem released_send (c : Context) (cmd : Command) : (c.send cmd).2.released = c.released := rfl

end Context

namespace Statement

/-- A text that is sent over an open connection is answered. -/
theorem sendLimited_answered {s : Statement} {c c' : Context} {text : String} {f : Shape}
    {outcome : Except SqlError Packet} (ho : c.connection.closed = false)
    (h : s.sendLimited c text f = (outcome, c')) :
    Answered c.connection.answer (s.route c text f) text outcome ∧
      c'.connection.missingCatalog = c.connection.missingCatalog ∧ c.released <+: c'.released := by
  obtain ⟨sent, hsent, -⟩ := sends_sendLimited ho h
  obtain ⟨n, hn⟩ := hsent.connection
  have hmissing : c'.connection.missingCatalog = c.connection.missingCatalog := by
    rw [hn]
    rfl
  have hk (d : String) : (s.announcing c d).connection = c.connection := by simp [announcing]
  have hran (d : String) : (s.announcing c d).released = c.released := by simp [announcing]
  have hs := s.sendLimited_sending c text f
  rw [h] at hs
  generalize hx : (outcome, c') = x at hs
  cases hs with
  | bare hp =>
    have ha := Context.send_answer ho (command text (s.route c text f).cap f)
    have hrel := c.released_send (command text (s.route c text f).cap f)
    rw [← hx] at ha hrel
    dsimp only at ha hrel
    rw [ha, hrel]
    exact ⟨.text (by simp [hp]) _, hmissing, List.prefix_refl _⟩
  | @withheld d e c'' hp hd =>
    obtain ⟨rfl, rfl⟩ := Prod.mk.inj hx
    have ha := Context.send_answer (hk d ▸ ho) (limitCommand d)
    have hrel := (s.announcing c d).released_send (limitCommand d)
    rw [hd, hk] at ha
    rw [hd, hran] at hrel
    refine ⟨.directive hp ?_, hmissing, hrel ▸ List.prefix_refl _⟩
    cases hd' : c.connection.answer d with
    | ok ack => simp [limitCommand, hd', Except.map] at ha
    | error e' => simpa [limitCommand, hd', Except.map] using ha.symm
  | @directed d ack c'' hp hd =>
    obtain ⟨-, q, hq, -, hc''⟩ := Context.send_ok hd
    rw [hk] at hq hc''
    have hopen : (c''.release ack).connection.closed = false := by
      rw [Context.connection_release, hc'']
      exact ho
    have hanswer : (c''.release ack).connection.answer = c.connection.answer := by
      rw [Context.connection_release, hc'']
      rfl
    have hack : (c''.release ack).released = c.released ++ ack.closing := by
      rw [Context.released_release, hc'', ← hran d]
      rfl
    have ha := Context.send_answer hopen (command text (s.route c text f).cap f)
    have hrel := (c''.release ack).released_send (command text (s.route c text f).cap f)
    rw [← hx, hanswer] at ha
    rw [← hx, hack] at hrel
    dsimp only at ha hrel
    rw [ha, hrel]
    refine ⟨.text (fun d' hd' ↦ ⟨q, ?_⟩) _, hmissing, List.prefix_append _ _⟩
    rw [← Option.some.inj (hp.symm.trans hd')]
    exact hq

/-- A text that is exchanged over an open connection is replied to. -/
theorem exchange_replied {s : Statement} {c c' : Context} {text : String} {f : Shape}
    {outcome : Except SqlError Packet} (ho : c.connection.closed = false)
    (h : s.exchangeInCatalog c text f = (outcome, c')) :
    c.connection.Replied s.catalog (s.route c text f) text outcome ∧
      c.released <+: c'.released := by
  have hx := s.exchangeInCatalog_exchange c text f
  rw [h] at hx
  generalize hx' : (outcome, c') = x at hx
  -- behind the change of the catalog the rules and the missing catalog are the same
  have inside {k : Connection} {given : Except SqlError Packet} {d : Context}
      (hs : c.connection.selectCatalog s.catalog = .ok k)
      (hsend : s.sendLimited { c with connection := k } text f = (given, d)) :
      c.connection.missingCatalog ≠ some s.catalog ∧
        Answered c.connection.answer (s.route c text f) text given ∧
        d.connection.missingCatalog = c.connection.missingCatalog ∧
        c.released <+: d.released := by
    obtain ⟨hm, rfl⟩ := Connection.selectCatalog_ok hs
    have ha := sendLimited_answered (by exact ho) hsend
    exact ⟨hm, ha⟩
  cases hx with
  | inPlace hc =>
    obtain ⟨ha, -, hran⟩ := sendLimited_answered ho hx'.symm
    exact ⟨.answered (.inl hc) ha fun _ ↦ .inl hc, hran⟩
  | @barred e hne hs =>
    obtain ⟨rfl, rfl⟩ := Prod.mk.inj hx'
    obtain ⟨hm, rfl⟩ := Connection.selectCatalog_error hs
    exact ⟨.barred hne hm, List.prefix_refl _⟩
  | restored hne hs hsend hr =>
    obtain ⟨rfl, rfl⟩ := Prod.mk.inj hx'
    obtain ⟨hm, ha, hmissing, hran⟩ := inside hs hsend
    have hback := (Connection.selectCatalog_ok hr).1
    rw [hmissing] at hback
    exact ⟨.answered (.inr hm) ha fun _ ↦ .inr hback, hran⟩
  | strandedError hne hs hsend hr =>
    obtain ⟨rfl, rfl⟩ := Prod.mk.inj hx'
    obtain ⟨hm, ha, -, hran⟩ := inside hs hsend
    refine ⟨.answered (.inr hm) ha fun h ↦ ?_, by simpa using hran⟩
    simp [Except.isOk, Except.toBool] at h
  | @strandedPacket k d p e hne hs hsend hr =>
    obtain ⟨rfl, rfl⟩ := Prod.mk.inj hx'
    obtain ⟨hm, ha, hmissing, hran⟩ := inside hs hsend
    obtain ⟨hback, rfl⟩ := Connection.selectCatalog_error hr
    rw [hmissing] at hback
    refine ⟨.stranded hne hm ha hback, hran.trans ?_⟩
    simp

/-- Why an execution is refused before it changes anything, the first reason that there is. -/
def refusal? (t : Statement) (c : Context) (kind : StatementKind) (sql : String) :
    Option SqlError :=
  if t.closed then some .onClosedStatement
  else if !(t.attached && c.alive) then some .connectionClosed
  else if Text.allBlank sql.toList then some (.invalidArgument .blankSql)
  else if c.poisoned then some (.internal .lockFailed)
  else if c.connection.closed then some .connectionClosed
  else if c.connection.readOnly && !kind.allowedReadOnly sql then some .readOnlyViolation
  else match t.expanded sql with
    | .error e => some e
    | .ok _ => none

/-- The checks of an execution refuse it for the first reason that there is. -/
theorem prepare_error_iff {t : Statement} {c : Context} {kind : StatementKind} {sql : String}
    {e : SqlError} : t.prepare c kind sql = .error e ↔ t.refusal? c kind sql = some e := by
  unfold prepare usable checkAccess Context.lock refusal?
  by_cases hc : t.closed = true
  · simp [hc, Except.bind]
  by_cases ha : (t.attached && c.alive) = true
  · by_cases hb : Text.allBlank sql.toList = true
    · simp [hc, ha, hb, Except.bind]
    by_cases hp : c.poisoned = true
    · simp [hc, ha, hb, hp, Except.bind]
    by_cases hk : c.connection.closed = true
    · simp [hc, ha, hb, hp, hk, Except.bind]
    by_cases hr : (c.connection.readOnly && !kind.allowedReadOnly sql) = true
    · simp [hc, ha, hb, hp, hk, hr, Except.bind]
    cases t.expanded sql <;> simp [hc, ha, hb, hp, hk, hr, Except.bind]
  · simp [hc, ha, Except.bind]

/-- Why an execution fails behind its checks, and the packet that it rejects if it does so. -/
inductive Failure (t : Statement) (c : Context) (kind : StatementKind) (text : String) :
    SqlError → Option Packet → Prop
  /-- A hook of the results that were closed has poisoned the mutex. -/
  | lockedOut (hl : (t.opening c kind text).poisoned = true) :
    Failure t c kind text (.internal .lockFailed) none
  /-- The catalog, the directive, the text or the former catalog is refused. -/
  | unanswered {e : SqlError} (hl : (t.opening c kind text).poisoned = false)
      (hx : c.connection.Replied t.catalog (t.route c text (t.shape kind text)) text (.error e)) :
    Failure t c kind text e none
  /-- The packet is of the wrong sort. -/
  | rejected {p : Packet} {e : SqlError} (hl : (t.opening c kind text).poisoned = false)
      (hx : c.connection.Replied t.catalog (t.route c text (t.shape kind text)) text (.ok p))
      (hm : kind.mismatch? p = some e) :
    Failure t c kind text e (some p)

/-- The statement after an execution that failed behind its checks: without results, and with the
key and the warnings of the packet that was rejected, or the key as before and no warnings. -/
def failed (t : Statement) (rejected : Option Packet) : Statement :=
  { t with
    current := none
    pending := none
    lastKey := rejected.elim t.lastKey fun p ↦ p.head.generatedKey
    warnings := rejected.elim [] fun p ↦ p.head.warnings }

/-- The results at hand are closed before an execution sends anything. -/
theorem released_opening (t : Statement) (c : Context) (kind : StatementKind) (text : String) :
    (t.opening c kind text).released =
      c.released ++ (t.current.toList ++ t.pending.toList).flatMap Packet.closing := by
  simp [opening]

/-- What an execution exchanges behind its checks is a reply of the connection as it was. -/
theorem replied_of_exchange {t : Statement} {c l c' : Context} {kind : StatementKind}
    {sql text : String} {outcome : Except SqlError Packet}
    (hp : t.prepare c kind sql = .ok text) (hl : (t.opening c kind text).lock = .ok l)
    (hx : t.cleared.exchangeInCatalog l text (t.shape kind text) = (outcome, c')) :
    c.connection.Replied t.catalog (t.route c text (t.shape kind text)) text outcome ∧
      (t.opening c kind text).poisoned = false ∧
      c.released ++ (t.current.toList ++ t.pending.toList).flatMap Packet.closing <+:
        c'.released := by
  have hk := connection_of_opening hl
  obtain ⟨hr, hran⟩ := exchange_replied (hk ▸ open_of_prepare hp) hx
  have hroute : t.cleared.route l text (t.shape kind text) =
      t.route c text (t.shape kind text) := by
    unfold route
    rw [hk]
    rfl
  rw [hk, hroute] at hr
  rw [Context.released_lock hl, released_opening] at hran
  refine ⟨hr, ?_, hran⟩
  unfold Context.lock at hl
  split at hl
  · simp at hl
  · next h => simpa using h

/-- An execution that is refused changes nothing. One that fails otherwise leaves the statement
without results. -/
theorem attempt_failure (t : Statement) (c : Context) (kind : StatementKind) (sql : String) :
    match t.refusal? c kind sql with
    | some e => t.attempt c kind sql = ⟨.error e, t, c⟩
    | none => ∀ e, (t.attempt c kind sql).result = .error e →
      ∃ text rejected, t.expanded sql = .ok text ∧ t.Failure c kind text e rejected ∧
        (t.attempt c kind sql).statement = t.failed rejected ∧
        c.released ++ (t.current.toList ++ t.pending.toList).flatMap Packet.closing <+:
          (t.attempt c kind sql).context.released := by
  have hx := t.attempt_course c kind sql
  generalize t.attempt c kind sql = o at hx ⊢
  cases href : t.refusal? c kind sql with
  | some e =>
    have hp := prepare_error_iff.2 href
    cases hx with
    | refused h =>
      rw [hp] at h
      rw [Except.error.inj h]
    | lockedOut h _ => simp [hp] at h
    | failed h _ _ => simp [hp] at h
    | rejected h _ _ _ => simp [hp] at h
    | presented h _ _ _ => simp [hp] at h
  | none =>
    intro e he
    cases hx with
    | refused h =>
      rw [prepare_error_iff, href] at h
      simp at h
    | @lockedOut text e' h hl =>
      rw [← Except.error.inj he]
      unfold Context.lock at hl
      split at hl
      · next hpoison =>
        rw [← Except.error.inj hl]
        exact ⟨text, none, expanded_of_prepare h, .lockedOut hpoison, rfl,
          released_opening t c kind text ▸ List.prefix_refl _⟩
      · simp at hl
    | @failed text l c' e' h hl hx =>
      obtain ⟨hr, hfree, hran⟩ := replied_of_exchange h hl hx
      rw [← Except.error.inj he]
      exact ⟨text, none, expanded_of_prepare h, .unanswered hfree hr, rfl, by simpa using hran⟩
    | @rejected text l c' p e' h hl hx hm =>
      obtain ⟨hr, hfree, hran⟩ := replied_of_exchange h hl hx
      have hsort : kind.mismatch? p = some e' := by
        cases kind <;> exact hm
      rw [← Except.error.inj he]
      refine ⟨text, some p, expanded_of_prepare h, .rejected hfree hr hsort, rfl, ?_⟩
      rw [reject, (undo_connection _ _).1]
      simp only [Context.released_release, Context.released_count, Context.released_unlock]
      exact hran.trans (List.prefix_append _ _)
    | presented _ _ _ _ => simp at he

end Statement

namespace Session

/-- A call that leaves its statement and the surroundings as they are leaves the session so. -/
theorem step_call_same {s : Session} {place : Nat} {t : Statement}
    (ht : s.statement? place = some t) {call : Call} {r : Except SqlError Answer}
    (h : t.perform s.context call = ⟨r, t, s.context⟩) : s.step (.call place call) = (r, s) := by
  rw [step_call_eq ht, h, set_statement ht]

/-- An execution that is refused leaves the whole session as it was. One that fails otherwise has
released all that was in the current and the pending slot, and leaves both empty and the kept
results, the queue and the settings alone. The key stays and the warnings are forgotten, or both are
those of a packet that the execution itself rejected. -/
theorem execution_atomic {s : Session} {place : Nat} {t : Statement} {call : Call}
    {kind : StatementKind} {sql : String} (ht : s.statement? place = some t)
    (hc : call.single? = some (kind, sql)) :
    match t.refusal? s.context kind sql with
    | some e => s.step (.call place call) = (.error e, s)
    | none => ∀ e, (s.step (.call place call)).1 = .error e →
      let s' := (s.step (.call place call)).2
      ∃ text rejected, t.expanded sql = .ok text ∧
        t.Failure s.context kind text e rejected ∧
        s'.statements = s.statements.set place (some (t.failed rejected)) ∧
        s.context.released ++ (t.current.toList ++ t.pending.toList).flatMap Packet.closing <+:
          s'.context.released ∧
        ∀ p, t.current = some p ∨ t.pending = some p → p.Sound →
          ∀ h ∈ p.hooks, h ∈ s'.context.released := by
  have ha := t.attempt_failure s.context kind sql
  obtain ⟨f, hf⟩ := Statement.perform_single (s := t) (c := s.context) hc
  cases href : t.refusal? s.context kind sql with
  | some e =>
    rw [href] at ha
    dsimp only at ha
    rw [ha] at hf
    exact step_call_same ht hf
  | none =>
    rw [href] at ha
    intro e he s'
    have hstep := step_call_eq ht call
    rw [hf] at hstep
    have herr : (t.attempt s.context kind sql).result = .error e := by
      rw [hstep] at he
      cases hr : (t.attempt s.context kind sql).result with
      | ok p => simp [hr, Except.map] at he
      | error e' => simpa [hr, Except.map] using he
    obtain ⟨text, rejected, hexp, hfail, hst, hran⟩ := ha e herr
    have hs' : s'.statements = s.statements.set place (some (t.failed rejected)) := by
      rw [← hst]
      simp only [s', hstep]
    have hran' : s.context.released ++
        (t.current.toList ++ t.pending.toList).flatMap Packet.closing <+:
          s'.context.released := by
      simp only [s', hstep]
      exact hran
    refine ⟨text, rejected, hexp, hfail, hs', hran', fun p hp hsound h hh ↦ ?_⟩
    have hclosing : h ∈ p.closing := by
      rw [← List.count_pos_iff, Packet.count_closing hsound, List.count_pos_iff]
      exact hh
    apply hran'.subset
    refine List.mem_append_right _ (List.mem_flatMap.2 ⟨p, ?_, hclosing⟩)
    rw [List.mem_append, Option.mem_toList, Option.mem_toList]
    exact hp

/-- A query is answered with an update count while the results of the one before are at hand. -/
theorem execution_atomic_rejected :
    let s := (start .chained).run [.make .plain {}, .call 0 (.query "SELECT 1")]
    let call : Call := .query "UPDATE t"
    ∃ t, s.statement? 0 = some t ∧ call.single? = some (.query, "UPDATE t") ∧
      t.current.isSome ∧ t.pending.isSome ∧ t.refusal? s.context .query "UPDATE t" = none ∧
      (s.step (.call 0 call)).1 = .error .notAQuery ∧
      ∃ rejected, t.Failure s.context .query "UPDATE t" .notAQuery rejected ∧
        (s.step (.call 0 call)).2.statements = [some (t.failed rejected)] := by
  intro s call
  have ht : s.statement? 0 = some ((s.statement? 0).get rfl) := (Option.some_get rfl).symm
  have hc : call.single? = some (.query, "UPDATE t") := rfl
  have href : ((s.statement? 0).get rfl).refusal? s.context .query "UPDATE t" = none := by
    decide +kernel
  have he : (s.step (.call 0 call)).1 = .error .notAQuery := by decide +kernel
  have h := execution_atomic ht hc
  rw [href] at h
  obtain ⟨text, rejected, hexp, hfail, hs, -⟩ := h _ he
  have htext : ((s.statement? 0).get rfl).expanded "UPDATE t" = .ok "UPDATE t" := by
    decide +kernel
  rw [← Except.ok.inj (htext.symm.trans hexp)] at hfail
  exact ⟨_, ht, hc, by decide +kernel, by decide +kernel, href, he, rejected, hfail, hs⟩

end Session

end SqlSession
