import SqlSession.Proofs.CatalogScope

/-!
# The row limit of the session

The limit in force is that of the last directive that the connection accepted. Statements share
it, yet none is limited by another: before every text the limit in force is made that of its own
statement, or the text carries its own cap. While the connection uses no limits, no statement has
one and no directive has been sent.
-/

namespace SqlSession

/-- The limit that a directive sets, none for the one that resets it. -/
def Sql.limitSet? (directive : String) : Option Int32 :=
  Decimal.readInt32? (directive.toList.drop "SET OPTION SQL_SELECT_LIMIT=".toList.length)

/-- The command set or reset the limit of the session: it is a directive that was accepted. -/
def Dispatch.setsLimit (d : Dispatch) : Bool := d.accepted && d.command.purpose == .limit

/-- The row limit that commands leave in force. -/
def sessionLimit (ds : List Dispatch) : Option Int32 :=
  (ds.filter Dispatch.setsLimit).getLast?.bind fun d ↦ Sql.limitSet? d.command.sql

theorem Sql.limitSet?_default : limitSet? defaultLimitDirective = none := by decide

/-- A directive for a row limit sets that limit if it is positive, and resets it else. -/
theorem Sql.limitSet?_directiveFor (n : Int32) :
    limitSet? (directiveFor n) = if n ≤ 0 then none else some n := by
  unfold directiveFor
  by_cases h : n ≤ 0
  · rw [if_pos h, if_pos h]
    exact limitSet?_default
  · rw [if_neg h, if_neg h, limitSet?, String.toList_append, List.drop_left, Decimal.text,
      String.toList_ofList, Decimal.readInt32?_render]

/-- Commands that set no limit leave the one in force. -/
theorem sessionLimit_append {a b : List Dispatch} (h : ∀ d ∈ b, d.setsLimit = false) :
    sessionLimit (a ++ b) = sessionLimit a := by
  have hb : b.filter Dispatch.setsLimit = [] := by
    rw [List.filter_eq_nil_iff]
    intro d hd
    simp [h d hd]
  rw [sessionLimit, List.filter_append, hb, List.append_nil, sessionLimit]

/-- An accepted directive puts its limit in force. -/
theorem sessionLimit_concat (a : List Dispatch) {d : Dispatch} (h : d.setsLimit = true) :
    sessionLimit (a ++ [d]) = Sql.limitSet? d.command.sql := by
  rw [sessionLimit, List.filter_append, List.filter_cons, if_pos h, List.filter_nil,
    List.getLast?_concat]
  rfl

namespace Execution

/-- The text that the execution goes on to send: none if the checks refuse it, if the mutex cannot
be taken, or if the catalog of the statement cannot be selected. -/
def goal? (e : Execution) : Option String :=
  match e.statement.prepare e.context e.kind e.sql with
  | .error _ => none
  | .ok text =>
    if (e.statement.opening e.context e.kind text).poisoned = true ∨
        e.context.connection.catalog ≠ e.statement.catalog ∧
          e.context.connection.missingCatalog = some e.statement.catalog then none
    else some text

/-- How the execution limits a text. -/
def plan (e : Execution) (text : String) : Sql.LimitRoute :=
  .choose e.context.connection.limitsRows text (e.statement.shape e.kind text).query
    e.statement.settings.maxRows

/-- The execution sends nothing without a goal, and else what its plan says. -/
theorem sent_delivery (e : Execution) :
    e.after.connection.limitsRows = e.context.connection.limitsRows ∧
      match e.goal? with
      | none => e.sent = []
      | some text => ∃ given, Statement.Delivery (e.plan text) e.statement.catalog text
          (e.statement.shape e.kind text) given e.sent := by
  have hd := e.keeps_scope.dispatches
  obtain ⟨s, c, kind, sql⟩ := e
  have hx := s.attempt_attempted c kind sql
  have hafter : (⟨s, c, kind, sql⟩ : Execution).after = (s.attempt c kind sql).context := rfl
  generalize s.attempt c kind sql = o at hx hafter
  rw [hafter] at hd ⊢
  cases hx with
  | unsent h _ hk =>
    rw [hk] at hd ⊢
    refine ⟨rfl, ?_⟩
    have hgoal : (⟨s, c, kind, sql⟩ : Execution).goal? = none := by
      unfold goal?
      rcases h with h | ⟨text, h, hl⟩
      · simp [h]
      · have hp : (s.opening c kind text).poisoned = true := by
          unfold Context.lock at hl
          split at hl
          · assumption
          · simp at hl
        simp [h, hp]
    rw [hgoal]
    exact List.self_eq_append_right.1 hd
  | @exchanged text l c' outcome hp hl hx hk _ =>
    have hbooks := Statement.connection_of_opening hl
    obtain ⟨sent, selected, hsent⟩ :=
      Statement.exchange_exchanged (hbooks ▸ Statement.open_of_prepare hp) hx
    obtain ⟨n, hn⟩ := hk
    have hout : o.context.connection.dispatches = c.connection.dispatches ++ sent := by
      rw [hn, ← hbooks]
      exact hsent.dispatches
    have heq : (⟨s, c, kind, sql⟩ : Execution).sent = sent :=
      List.append_cancel_left (hd.symm.trans hout)
    have hposted := hsent.posted
    refine ⟨?_, ?_⟩
    · rw [hn, ← hbooks]
      exact hsent.limitsRows
    · have hfree : ¬(s.opening c kind text).poisoned = true := by
        unfold Context.lock at hl
        split at hl
        · simp at hl
        · assumption
      rw [heq]
      have hroute : s.cleared.route l text (s.shape kind text) =
          (⟨s, c, kind, sql⟩ : Execution).plan text := by
        unfold Statement.route
        rw [hbooks]
        rfl
      rw [hroute, hbooks] at hposted
      unfold goal?
      rw [hp]
      dsimp only
      cases hposted with
      | barred hne hm => rw [if_pos (.inr ⟨hne, hm⟩)]
      | posted h hdel =>
        have hnot : ¬((s.opening c kind text).poisoned = true ∨
            c.connection.catalog ≠ s.catalog ∧ c.connection.missingCatalog = some s.catalog) := by
          rintro (hpo | ⟨hne, hm⟩)
          · exact hfree hpo
          · rcases h with h | h
            · exact hne h
            · exact h hm
        rw [if_neg hnot]
        exact ⟨_, hdel⟩

/-- A command of an execution is the directive of its plan for the goal, or it carries the goal. -/
theorem goal_of_sent {e : Execution} {d : Dispatch} (h : d ∈ e.sent) :
    ∃ text, e.goal? = some text ∧
      (d.command.purpose = .limit ∧ (e.plan text).directive? = some d.command.sql ∨
        d.command.purpose = .text ∧ d.command.sql = text ∧
          d.command.query = (e.statement.shape e.kind text).query) := by
  obtain ⟨-, hd⟩ := e.sent_delivery
  cases hg : e.goal? with
  | none =>
    rw [hg] at hd
    rw [hd] at h
    cases h
  | some text =>
    rw [hg] at hd
    obtain ⟨given, hd⟩ := hd
    refine ⟨text, rfl, ?_⟩
    generalize e.sent = sent at hd h
    cases hd with
    | withheld hp _ =>
      rw [List.mem_singleton.1 h]
      exact .inl ⟨rfl, hp⟩
    | delivered =>
      rcases List.mem_append.1 h with h | h
      · obtain ⟨directive, hp, rfl⟩ := List.mem_map.1 h
        exact .inl ⟨rfl, Option.mem_toList.1 hp⟩
      · rw [List.mem_singleton.1 h]
        exact .inr ⟨rfl, rfl, rfl⟩

end Execution

namespace Statement

/-- The statement has no row limit or a positive one, and a positive one only on a connection that
uses limits. -/
structure LimitKept (s : Statement) (k : Connection) : Prop where
  stored : s.settings.maxRows = noRowLimit ∨ 0 < s.settings.maxRows
  announced : 0 < s.settings.maxRows → k.limitsRows = true

end Statement

/-- No directive has been sent while the connection uses no limits. -/
def Connection.LimitSilent (k : Connection) : Prop :=
  k.limitsRows = false → ∀ d ∈ k.dispatches, d.command.purpose ≠ .limit

/-- Without directives there is no limit in force. -/
theorem sessionLimit_none {ds : List Dispatch} (h : ∀ d ∈ ds, d.command.purpose ≠ .limit) :
    sessionLimit ds = none := by
  have hnone : ∀ d ∈ ds, d.setsLimit = false := by
    intro d hd
    simp [Dispatch.setsLimit, h d hd]
  have := sessionLimit_append (a := []) hnone
  rwa [List.nil_append] at this

namespace Statement.LimitKept

variable {s : Statement} {k : Connection}

/-- The row limit that a statement shows is its stored one, with zero for none. -/
theorem maxRows_eq (hs : s.LimitKept k) {c : Context} (hu : s.usable c = .ok ()) :
    ∃ n, s.maxRows c = .ok n ∧
      (if n = 0 then none else some n) =
        if s.settings.maxRows ≤ 0 then none else some s.settings.maxRows := by
  refine ⟨if s.settings.maxRows < 0 then 0 else s.settings.maxRows, ?_, ?_⟩
  · rw [maxRows, read, hu]
    rfl
  · rcases hs.stored with h | h
    · rw [h]
      decide
    · have h0 : ¬s.settings.maxRows < 0 := by
        rw [Int32.lt_iff_toInt_lt] at h ⊢
        omega
      have h1 : ¬s.settings.maxRows ≤ 0 := by
        rw [Int32.lt_iff_toInt_lt] at h
        rw [Int32.le_iff_toInt_le]
        omega
      have h2 : s.settings.maxRows ≠ 0 := by
        intro heq
        rw [heq] at h
        exact absurd h (by decide)
      rw [if_neg h0, if_neg h1, if_neg h2]

/-- On a connection without limits the statement has none. -/
theorem unlimited (hs : s.LimitKept k) (hk : k.limitsRows = false) :
    s.settings.maxRows = noRowLimit := by
  rcases hs.stored with h | h
  · exact h
  · have := hs.announced h
    rw [hk] at this
    simp at this

end Statement.LimitKept

namespace Execution

/-- What limits a text that an execution sends behind its first commands. -/
structure InForce (e : Execution) (first : List Dispatch) (t : Dispatch) : Prop where
  /-- What is no query is sent without a limit. -/
  other : t.command.query = false →
    sessionLimit (e.context.connection.dispatches ++ first) = none ∧
      t.command.maxRows = noRowLimit
  /-- A query without a limit clause is sent under the row limit of its statement. -/
  own : t.command.query = true → Sql.mentionsLimit t.command.sql = false →
    (∃ n, e.statement.maxRows e.context = .ok n ∧
      sessionLimit (e.context.connection.dispatches ++ first) = if n = 0 then none else some n) ∧
      t.command.maxRows = noRowLimit
  /-- A query with a limit clause carries the stored limit of its statement. -/
  capped : t.command.query = true → Sql.mentionsLimit t.command.sql = true →
    e.context.connection.limitsRows = true →
      first = [] ∧ t.command.maxRows = e.statement.settings.maxRows
  /-- A connection that uses no limits is sent none. -/
  unused : e.context.connection.limitsRows = false →
    first = [] ∧ t.command.maxRows = noRowLimit

/-- The commands that an execution with a goal sends. -/
inductive LimitCourse (e : Execution) : Option String → List Dispatch → Prop
  /-- There is no goal, and nothing is sent. -/
  | unsent : LimitCourse e none []
  /-- The directive is refused, and nothing more is sent. -/
  | withheld {text : String} {d : Dispatch} (hp : d.command.purpose = .limit)
      (ha : d.accepted = false) : LimitCourse e (some text) [d]
  /-- The text is sent once, behind one accepted directive at most. -/
  | delivered {text : String} {first : List Dispatch} {t : Dispatch}
      (hf : first = [] ∨ ∃ d, d.setsLimit = true ∧ first = [d])
      (hp : t.command.purpose = .text) (ht : t.command.sql = text)
      (hx : e.statement.expanded e.sql = .ok text) (hl : e.InForce first t) :
    LimitCourse e (some text) (first ++ [t])

/-- A goal is the expanded text of a statement that can be used. -/
theorem goal?_eq_some {e : Execution} {text : String} (h : e.goal? = some text) :
    e.statement.usable e.context = .ok () ∧ e.statement.expanded e.sql = .ok text := by
  unfold goal? at h
  split at h
  · simp at h
  · next text' hp =>
    split at h
    · simp at h
    · rw [← Option.some.inj h]
      exact ⟨Statement.usable_of_prepare hp, Statement.expanded_of_prepare hp⟩

/-- The plan of an execution puts the right limit in force, if the statement and the connection
are in order. -/
theorem inForce_plan {e : Execution} (hs : e.statement.LimitKept e.context.connection)
    (hk : e.context.connection.LimitSilent) (hu : e.statement.usable e.context = .ok ())
    (text : String) (accepted : Bool) :
    e.InForce
      ((e.plan text).directive?.toList.map fun d ↦
        ⟨Statement.limitCommand d, e.statement.catalog, true⟩)
      ⟨Statement.command text (e.plan text).cap (e.statement.shape e.kind text),
        e.statement.catalog, accepted⟩ := by
  have unused (hl : e.context.connection.limitsRows = false) : e.plan text = .plain := by
    simp [plan, Sql.LimitRoute.choose, hl]
  constructor
  · intro hq
    change (e.statement.shape e.kind text).query = false at hq
    by_cases hl : e.context.connection.limitsRows = true
    · have hplan : e.plan text = .directed Sql.defaultLimitDirective := by
        simp [plan, Sql.LimitRoute.choose, hl, hq]
      rw [hplan]
      exact ⟨(sessionLimit_concat _ rfl).trans Sql.limitSet?_default, rfl⟩
    · rw [Bool.not_eq_true] at hl
      rw [unused hl]
      refine ⟨?_, rfl⟩
      simpa [Sql.LimitRoute.directive?] using sessionLimit_none (hk hl)
  · intro hq hm
    change (e.statement.shape e.kind text).query = true at hq
    change Sql.mentionsLimit text = false at hm
    obtain ⟨n, hn, hown⟩ := hs.maxRows_eq hu
    by_cases hl : e.context.connection.limitsRows = true
    · have hplan : e.plan text = .directed (Sql.directiveFor e.statement.settings.maxRows) := by
        simp [plan, Sql.LimitRoute.choose, hl, hq, hm]
      rw [hplan]
      refine ⟨⟨n, hn, ?_⟩, rfl⟩
      rw [hown, ← Sql.limitSet?_directiveFor]
      exact sessionLimit_concat _ rfl
    · rw [Bool.not_eq_true] at hl
      rw [unused hl]
      refine ⟨⟨n, hn, ?_⟩, rfl⟩
      have hnone := sessionLimit_none (hk hl)
      rw [hown, hs.unlimited hl, if_pos (by decide)]
      simpa [Sql.LimitRoute.directive?] using hnone
  · intro hq hm hl
    change (e.statement.shape e.kind text).query = true at hq
    change Sql.mentionsLimit text = true at hm
    have hplan : e.plan text = .capped e.statement.settings.maxRows := by
      simp [plan, Sql.LimitRoute.choose, hl, hq, hm]
    rw [hplan]
    exact ⟨rfl, rfl⟩
  · intro hl
    rw [unused hl]
    exact ⟨rfl, rfl⟩

/-- The commands of an execution are limited as its statement is, if the statement and the
connection are in order. -/
theorem limitCourse {e : Execution} (hs : e.statement.LimitKept e.context.connection)
    (hk : e.context.connection.LimitSilent) : e.LimitCourse e.goal? e.sent := by
  obtain ⟨-, hd⟩ := e.sent_delivery
  cases hg : e.goal? with
  | none =>
    rw [hg] at hd
    rw [hd]
    exact .unsent
  | some text =>
    rw [hg] at hd
    obtain ⟨hu, hx⟩ := goal?_eq_some hg
    obtain ⟨given, hd⟩ := hd
    generalize e.sent = sent at hd ⊢
    cases hd with
    | withheld _ _ => exact .withheld rfl rfl
    | delivered =>
      refine .delivered ?_ rfl rfl hx (inForce_plan hs hk hu text given.isOk)
      cases (e.plan text).directive? with
      | none => exact .inl rfl
      | some d => exact .inr ⟨_, rfl, rfl⟩

end Execution

namespace Statement

/-- A step that lets no limit slip: the connection does not cease to use limits, sends no directive
before it uses them, and the statement keeps in order. -/
structure KeepsLimit (s : Statement) (c : Context) (s' : Statement) (c' : Context) : Prop where
  uses : c.connection.limitsRows = true → c'.connection.limitsRows = true
  silent : c.connection.LimitSilent → c'.connection.LimitSilent
  kept : s.LimitKept c.connection → s'.LimitKept c'.connection

/-- A step that changes neither the settings nor the connection lets no limit slip. -/
theorem KeepsLimit.of_same {s s' : Statement} {c c' : Context} (hs : s'.settings = s.settings)
    (hk : c'.connection = c.connection) : s.KeepsLimit c s' c' where
  uses h := hk ▸ h
  silent h := hk ▸ h
  kept h := ⟨hs ▸ h.stored, hk ▸ hs ▸ h.announced⟩

/-- Over a connection that uses no limits an execution sends no directive. -/
theorem purpose_of_unused {e : Execution} (hu : e.context.connection.limitsRows = false)
    {d : Dispatch} (hd : d ∈ e.sent) : d.command.purpose ≠ .limit := by
  obtain ⟨text, -, ⟨-, hp⟩ | ⟨hp, -⟩⟩ := Execution.goal_of_sent hd
  · have hplan : e.plan text = .plain := by simp [Execution.plan, Sql.LimitRoute.choose, hu]
    rw [hplan] at hp
    cases hp
  · rw [hp]
    nofun

/-- An execution sends a directive only over a connection that uses limits. -/
theorem keepsLimit_attempt (s : Statement) (c : Context) (kind : StatementKind) (sql : String) :
    s.KeepsLimit c (s.attempt c kind sql).statement (s.attempt c kind sql).context := by
  have hd := (Execution.keeps_scope ⟨s, c, kind, sql⟩).dispatches
  have hl := (Execution.sent_delivery ⟨s, c, kind, sql⟩).1
  change (s.attempt c kind sql).context.connection.limitsRows = c.connection.limitsRows at hl
  change (s.attempt c kind sql).context.connection.dispatches = c.connection.dispatches ++ _ at hd
  have hs := s.settings_attempt c kind sql
  refine ⟨fun h ↦ hl.trans h, ?_, fun h ↦ ⟨hs ▸ h.stored, ?_⟩⟩
  · intro hk hu d hmem
    have hunused : c.connection.limitsRows = false := hl.symm.trans hu
    rw [hd] at hmem
    rcases List.mem_append.1 hmem with hmem | hmem
    · exact hk hunused d hmem
    · exact purpose_of_unused hunused hmem
  · intro hpos
    rw [hs] at hpos
    exact hl.trans (h.announced hpos)

/-- A new row limit is announced to the connection. -/
theorem keepsLimit_set (v : Setting) {s s' : Statement} {c c' : Context}
    (h : v.setter s c = .ok (s', c')) : s.KeepsLimit c s' c' := by
  cases (setter_ok h).2 with
  | @limited n l h0 hn hl =>
    refine ⟨fun _ ↦ rfl, fun _ hu ↦ ?_, fun _ ↦ ⟨?_, fun _ ↦ rfl⟩⟩
    · simp [Connection.announceLimit] at hu
    · change (if n = 0 then noRowLimit else n) = noRowLimit ∨
        0 < (if n = 0 then noRowLimit else n)
      by_cases hz : n = 0
      · rw [if_pos hz]
        exact .inl rfl
      · rw [if_neg hz]
        exact .inr (Int32.lt_of_le_of_ne h0 (Ne.symm hz))
  | looked ht hl =>
    have hk := Context.connection_lock hl
    refine ⟨fun hu ↦ ?_, fun hs ↦ ?_, fun hs ↦ ⟨?_, ?_⟩⟩
    · rw [Context.connection_unlock, hk]
      exact hu
    · rw [Context.connection_unlock, hk]
      exact hs
    · rw [ht]
      exact hs.stored
    · rw [ht, Context.connection_unlock, hk]
      exact hs.announced
  | stored ht =>
    exact ⟨fun hu ↦ hu, fun hk ↦ hk, fun hs ↦ ⟨ht ▸ hs.stored, ht ▸ hs.announced⟩⟩

/-- No step of a call lets a limit slip. -/
theorem keepsLimit_law : StepLaw KeepsLimit where
  refl _ _ := .of_same rfl rfl
  trans h₁ h₂ := ⟨h₂.uses ∘ h₁.uses, h₂.silent ∘ h₁.silent, h₂.kept ∘ h₁.kept⟩
  aside _ _ _ _ := .of_same rfl rfl
  borrow _ _ _ := .of_same rfl rfl
  log s c rs := .of_same rfl (c.connection_log rs)
  failedBatch s c scope := .of_same rfl (c.connection_count scope _)
  attempt := keepsLimit_attempt
  advance s c mode := by
    cases hu : s.usable c with
    | error e => rw [advance_error hu]; exact .of_same rfl rfl
    | ok u => rw [advance_ok hu]; exact .of_same rfl (c.connection_releaseAll _)
  serve s c q := by
    rcases s.serveCurrent_cases c q with ⟨hs, hc⟩ | ⟨p, -, -, -, hs, hc⟩
    · exact .of_same (by rw [hs]) (by rw [hc])
    · exact .of_same (by rw [hs]) (by rw [hc, Context.connection_noteAll])
  set := keepsLimit_set
  close s c := by
    unfold close
    split
    · exact .of_same rfl rfl
    · exact .of_same rfl (by simp)

end Statement

namespace Session

/-- No directive was sent before the connection used limits, and all statements are in order. -/
structure LimitsKept (s : Session) : Prop where
  silent : s.context.connection.LimitSilent
  kept : ∀ t, some t ∈ s.statements → t.LimitKept s.context.connection

/-- What a step does to one statement and the connection leaves the other statements in order. -/
theorem LimitsKept.others {s : Session} (hs : s.LimitsKept) {k : Connection}
    (hu : s.context.connection.limitsRows = true → k.limitsRows = true) {t : Statement}
    (ht : some t ∈ s.statements) : t.LimitKept k :=
  ⟨(hs.kept t ht).stored, fun h ↦ hu ((hs.kept t ht).announced h)⟩

/-- A call beside the statements does not make the connection cease to use limits. -/
theorem connectionCall_uses {c : Context} (call : ConnectionCall)
    (hu : c.connection.limitsRows = true) :
    (connectionCall c call).2.connection.limitsRows = true := by
  cases call with
  | setReadOnly on => exact hu
  | setAutoCommit on => exact hu
  | setClosed on => exact hu
  | announceLimit => rfl
  | selectCatalog name =>
    unfold connectionCall
    dsimp only
    split
    · next k hk => rw [(Connection.selectCatalog_ok hk).2]; exact hu
    · exact hu
  | rollback =>
    unfold connectionCall
    dsimp only
    split
    · exact hu
    · exact hu
  | execute cmd =>
    unfold connectionCall Context.send Connection.send
    dsimp only
    split
    · exact hu
    · split
      · exact hu
      · exact hu

/-- No operation lets a limit slip, unless it sends a command beside the statements. -/
theorem limitsKept_step {op : Operation} (hd : op.direct = false) {s : Session}
    (hs : s.LimitsKept) : (s.step op).2.LimitsKept := by
  have law := Statement.keepsLimit_law
  have hstep := s.step_stepped op
  generalize (s.step op).2 = s' at hstep ⊢
  cases hstep with
  | idle => exact hs
  | @made origin setup t fs ht hf =>
    have hr := law.runSetters hf t s.context
    have hnew : t.LimitKept s.context.connection := by
      refine ⟨.inl ht.maxRows, fun h ↦ ?_⟩
      rw [ht.maxRows] at h
      exact absurd h (by decide)
    refine ⟨hr.silent hs.silent, fun u hu ↦ ?_⟩
    rcases List.mem_append.1 hu with hu | hu
    · exact hs.others hr.uses hu
    · rw [Option.some.inj (List.mem_singleton.1 hu)]
      exact ⟨(hr.kept hnew).stored, (hr.kept hnew).announced⟩
  | @unmade origin setup t fs ht hf =>
    have hr := law.trans (law.runSetters hf t s.context) (law.close _ _)
    exact ⟨hr.silent hs.silent, fun u hu ↦ hs.others hr.uses hu⟩
  | @called place t ht call =>
    have hr := law.perform t s.context call
    refine ⟨hr.silent hs.silent, fun u hu ↦ ?_⟩
    rcases List.mem_or_eq_of_mem_set hu with hu | hu
    · exact hs.others hr.uses hu
    · rw [Option.some.inj hu]
      exact hr.kept (hs.kept t (List.mem_of_getElem? ht))
  | @dropped place t ht =>
    have hr := law.close t s.context
    refine ⟨hr.silent hs.silent, fun u hu ↦ ?_⟩
    rcases List.mem_or_eq_of_mem_set hu with hu | hu
    · exact hs.others hr.uses hu
    · simp at hu
  | beside call =>
    have hbooks := (connectionCall_books hd s.context).1
    refine ⟨?_, fun u hu ↦ hs.others (connectionCall_uses call) hu⟩
    intro hu
    rw [hbooks.dispatches]
    apply hs.silent
    by_cases h : s.context.connection.limitsRows = true
    · have := connectionCall_uses call h
      rw [hu] at this
      simp at this
    · simpa using h
  | underwent op f =>
    cases f with
    | poison => exact ⟨hs.silent, hs.kept⟩
    | dropConnection => exact ⟨hs.silent, hs.kept⟩

/-- Each execution of a session starts with its statement and the connection in order. -/
theorem limitKept_of_mem {connection : Connection} {ops : List Operation}
    (hf : connection.Fresh) (hd : ∀ op ∈ ops, op.direct = false) {e : Execution}
    (he : e ∈ (start connection).executions ops) :
    e.statement.LimitKept e.context.connection ∧ e.context.connection.LimitSilent := by
  obtain ⟨before, place, call, rest, t, rfl, ht, he⟩ := mem_executions he
  have hstart : (start connection).LimitsKept := by
    refine ⟨fun _ d hmem ↦ ?_, by simp [start]⟩
    rw [start, hf.dispatches] at hmem
    simp at hmem
  have hs : ((start connection).run before).LimitsKept := by
    apply run_induction _ hstart
    intro s op hop hs
    exact limitsKept_step (hd op (by simp [hop])) hs
  have hentry := Statement.keepsLimit_law.entry he
  exact ⟨hentry.kept (hs.kept t (List.mem_of_getElem? (statement?_eq_some.1 ht))),
    hentry.silent hs.silent⟩

/-- Every execution of a session is limited as its own statement is, whatever the others did. -/
theorem executions_limited {connection : Connection} {ops : List Operation}
    (hf : connection.Fresh) (hd : ∀ op ∈ ops, op.direct = false) :
    ∀ e ∈ (start connection).executions ops,
      e.after.connection.dispatches = e.context.connection.dispatches ++ e.sent ∧
      (e.statement.settings.maxRows = noRowLimit ∨ 0 < e.statement.settings.maxRows) ∧
      e.LimitCourse e.goal? e.sent := by
  intro e he
  obtain ⟨hkept, hsilent⟩ := limitKept_of_mem hf hd he
  exact ⟨e.keeps_scope.dispatches, hkept.stored, Execution.limitCourse hkept hsilent⟩

/-- Of two statements only one has a row limit: each sets or resets the limit in force before its
query. -/
theorem executions_limited_two :
    let k : Connection := { catalog := "main" }
    let ops : List Operation :=
      [.make .plain {}, .make .plain {}, .call 0 (.set (.maxRows 5)), .call 0 (.query "SELECT 1"),
        .call 1 (.query "SELECT 2")]
    k.Fresh ∧ (∀ op ∈ ops, op.direct = false) ∧
      ((start k).run ops).context.connection.dispatches.map (fun d ↦ d.command.sql) =
        ["SET OPTION SQL_SELECT_LIMIT=5", "SELECT 1", "SET OPTION SQL_SELECT_LIMIT=DEFAULT",
          "SELECT 2"] ∧
      ∀ e ∈ (start k).executions ops, e.LimitCourse e.goal? e.sent := by
  intro k ops
  have hf : k.Fresh := ⟨rfl, rfl⟩
  have hd : ∀ op ∈ ops, op.direct = false := by simp [ops, Operation.direct]
  exact ⟨hf, hd, by decide +kernel, fun e he ↦ (executions_limited hf hd e he).2.2⟩

end Session

end SqlSession
