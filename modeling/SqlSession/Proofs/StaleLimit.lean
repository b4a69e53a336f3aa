import SqlSession.Proofs.SessionLimit

/-!
# The limit that others leave

A query with a limit clause of its own is sent behind no directive. The limit of the session that
it meets is the one that earlier executions left: a query without such a clause leaves the row
limit of its statement, and all else that is limited by the session resets the limit.
-/

namespace SqlSession

namespace Execution

/-- The row limit that the statement shows as the execution starts, none for zero. -/
def rowLimit? (e : Execution) : Option Int32 :=
  match e.statement.maxRows e.context with
  | .ok n => if n = 0 then none else some n
  | .error _ => none

/-- The last command of the execution is sent as a query. -/
def endsInQuery (e : Execution) : Bool := e.sent.getLast?.any fun d ↦ d.command.query

/-- The limit of the session behind an execution that set or reset it: a query leaves the row limit
of its statement, all else leaves none. -/
def limitLeft? (e : Execution) : Option (Option Int32) :=
  if e.sent.any Dispatch.setsLimit then some (if e.endsInQuery then e.rowLimit? else none)
  else none

/-- An execution puts the limit in force that it leaves, or keeps the one before. -/
theorem sessionLimit_sent {e : Execution} (hs : e.statement.LimitKept e.context.connection)
    (hk : e.context.connection.LimitSilent) (ds : List Dispatch) :
    sessionLimit (ds ++ e.sent) = e.limitLeft?.getD (sessionLimit ds) := by
  have hx := limitCourse hs hk
  have hleft : e.limitLeft? = if e.sent.any Dispatch.setsLimit then
      some (if e.endsInQuery then e.rowLimit? else none) else none := rfl
  rw [endsInQuery] at hleft
  generalize e.goal? = goal at hx
  generalize e.sent = sent at hx hleft ⊢
  cases hx with
  | unsent =>
    rw [hleft, List.append_nil]
    rfl
  | @withheld text d hp ha =>
    have hd : d.setsLimit = false := by simp [Dispatch.setsLimit, ha]
    rw [hleft, sessionLimit_append (by simpa using hd)]
    simp [hd]
  | @delivered text first t hf hp ht hx hl =>
    have hquiet : t.setsLimit = false := by simp [Dispatch.setsLimit, hp]
    rw [← List.append_assoc, sessionLimit_append (by simpa using hquiet)]
    rcases hf with rfl | ⟨d, hd, rfl⟩
    · rw [hleft, List.append_nil]
      simp [hquiet]
    · -- the directive decides alone, whatever came before it
      have hforce : sessionLimit (ds ++ [d]) =
          sessionLimit (e.context.connection.dispatches ++ [d]) := by
        rw [sessionLimit_concat _ hd, sessionLimit_concat _ hd]
      rw [hforce, hleft]
      cases hq : t.command.query with
      | false =>
        rw [(hl.other hq).1]
        simp [hd, hq]
      | true =>
        cases hm : Sql.mentionsLimit t.command.sql with
        | false =>
          obtain ⟨⟨n, hn, hown⟩, -⟩ := hl.own hq hm
          rw [hown]
          simp [hd, hq, rowLimit?, hn]
        | true =>
          cases hr : e.context.connection.limitsRows with
          | false => exact absurd (hl.unused hr).1 (by simp)
          | true => exact absurd (hl.capped hq hm hr).1 (by simp)

/-- The limit in force behind executions is the last one that one of them left. -/
theorem sessionLimit_flatMap_sent {es : List Execution}
    (h : ∀ e ∈ es, e.statement.LimitKept e.context.connection ∧
      e.context.connection.LimitSilent) (ds : List Dispatch) :
    sessionLimit (ds ++ es.flatMap Execution.sent) =
      (latest? limitLeft? es).getD (sessionLimit ds) := by
  induction es generalizing ds with
  | nil => simp
  | cons e rest ih =>
    obtain ⟨hs, hk⟩ := h e (by simp)
    rw [List.flatMap_cons, ← List.append_assoc, ih (fun x hx ↦ h x (by simp [hx])),
      sessionLimit_sent hs hk, latest?_cons]
    cases latest? limitLeft? rest <;> rfl

/-- A query that mentions a limit is sent alone by a statement without row limit, and without a
cap. -/
theorem inline_alone {e : Execution} (hs : e.statement.LimitKept e.context.connection)
    (hk : e.context.connection.LimitSilent) (hmax : e.statement.maxRows e.context = .ok 0)
    {t : Dispatch} (ht : t ∈ e.sent) (hp : t.command.purpose = .text)
    (hq : t.command.query = true) (hm : Sql.mentionsLimit t.command.sql = true) :
    e.sent = [t] ∧ t.command.maxRows = noRowLimit := by
  have hx := limitCourse hs hk
  generalize e.goal? = goal at hx
  generalize e.sent = sent at hx ht ⊢
  cases hx with
  | unsent => simp at ht
  | withheld hp' _ =>
    rw [List.mem_singleton.1 ht, hp'] at hp
    simp at hp
  | @delivered text first t' hf _ _ _ hl =>
    have hsame : t = t' := by
      rcases hf with rfl | ⟨d, hd, rfl⟩
      · simpa using ht
      · rcases List.mem_cons.1 ht with rfl | ht
        · simp [Dispatch.setsLimit, hp] at hd
        · exact List.mem_singleton.1 ht
    subst hsame
    cases hr : e.context.connection.limitsRows with
    | false =>
      obtain ⟨rfl, hcap⟩ := hl.unused hr
      exact ⟨rfl, hcap⟩
    | true =>
      obtain ⟨rfl, hcap⟩ := hl.capped hq hm hr
      refine ⟨rfl, hcap.trans (hs.stored.resolve_right fun hpos ↦ ?_)⟩
      -- a positive row limit would be shown as it is
      have hu : e.statement.usable e.context = .ok () := by
        unfold Statement.maxRows Statement.read at hmax
        cases hu : e.statement.usable e.context with
        | ok u => rfl
        | error err => simp [hu, Except.map] at hmax
      obtain ⟨n, hn, hown⟩ := hs.maxRows_eq hu
      rw [hmax] at hn
      rw [← Except.ok.inj hn, if_pos rfl] at hown
      split at hown
      · next hle => exact absurd hpos (Int32.not_lt.2 hle)
      · simp at hown

end Execution

namespace Session

/-- A query with a limit clause of a statement without row limit meets the limit that the last
earlier execution left, and nothing is sent to change that. -/
theorem inline_query_limited {connection : Connection} {ops : List Operation}
    {before after : List Execution} {e : Execution} {t : Dispatch}
    (hf : connection.Fresh) (hd : ∀ op ∈ ops, op.direct = false)
    (hes : (start connection).executions ops = before ++ e :: after)
    (hmax : e.statement.maxRows e.context = .ok 0)
    (ht : t ∈ e.sent) (hp : t.command.purpose = .text) (hq : t.command.query = true)
    (hm : Sql.mentionsLimit t.command.sql = true) :
    e.sent = [t] ∧ t.command.maxRows = noRowLimit ∧
      sessionLimit e.context.connection.dispatches =
        (latest? Execution.limitLeft? before).getD none := by
  have hkept {x : Execution} (hx : x ∈ before ++ e :: after) :=
    limitKept_of_mem hf hd (hes ▸ hx)
  obtain ⟨hs, hk⟩ := hkept (x := e) (by simp)
  obtain ⟨halone, hcap⟩ := Execution.inline_alone hs hk hmax ht hp hq hm
  have hfollow := follow_dispatches hd (start connection)
  rw [hes] at hfollow
  have hbefore := hfollow.before.dispatches
  have hnone : sessionLimit ([] : List Dispatch) = none := rfl
  refine ⟨halone, hcap, ?_⟩
  rw [hbefore, Execution.sessionLimit_flatMap_sent fun x hx ↦ hkept (by simp [hx]), start,
    hf.dispatches, hnone]

/-- A limited statement queries and updates, and behind both a statement without row limit mentions
a limit. The update has reset what the query left. -/
theorem inline_query_limited_reset :
    let k : Connection := { catalog := "main" }
    let ops : List Operation :=
      [.make .plain {}, .make .plain {}, .call 0 (.set (.maxRows 5)), .call 0 (.query "SELECT 1"),
        .call 1 (.query "SELECT unlimited"), .call 0 (.largeUpdate "UPDATE t"),
        .call 1 (.query "SELECT unlimited")]
    let t : Dispatch :=
      ⟨Statement.command "SELECT unlimited" noRowLimit ⟨true, false, .readOnly⟩, "main", true⟩
    k.Fresh ∧ (∀ op ∈ ops, op.direct = false) ∧
      ∃ before e, (start k).executions ops = before ++ [e] ∧
        e.statement.maxRows e.context = .ok 0 ∧ t ∈ e.sent ∧ t.command.purpose = .text ∧
        t.command.query = true ∧ Sql.mentionsLimit t.command.sql = true ∧
        before.map Execution.limitLeft? = [some (some 5), none, some none] ∧ e.sent = [t] ∧
        sessionLimit e.context.connection.dispatches = none := by
  intro k ops t
  let es := (start k).executions ops
  let e := es.getLast (List.cons_ne_nil _ _)
  have hf : k.Fresh := ⟨rfl, rfl⟩
  have hd : ∀ op ∈ ops, op.direct = false := by simp [ops, Operation.direct]
  have hes : (start k).executions ops = es.dropLast ++ [e] :=
    (List.dropLast_concat_getLast _).symm
  have hmax : e.statement.maxRows e.context = .ok 0 := by decide +kernel
  have ht : t ∈ e.sent := by decide +kernel
  have hm : Sql.mentionsLimit t.command.sql = true := by decide +kernel
  have hleft : es.dropLast.map Execution.limitLeft? = [some (some 5), none, some none] := by
    decide +kernel
  obtain ⟨hsent, -, hlimit⟩ := inline_query_limited hf hd hes hmax ht rfl rfl hm
  have hlast : (latest? Execution.limitLeft? es.dropLast).getD none = none := by decide +kernel
  exact ⟨hf, hd, _, e, hes, hmax, ht, rfl, rfl, hm, hleft, hsent, hlimit.trans hlast⟩

/-- A statement without row limit mentions a limit in its query and meets the row limit that
another statement left. -/
theorem stale_limit_met :
    ¬∀ (k : Connection) (ops : List Operation), k.Fresh → (∀ op ∈ ops, op.direct = false) →
      ∀ e ∈ (start k).executions ops, e.statement.maxRows e.context = .ok 0 →
        ∀ first t, e.sent = first ++ [t] → t.command.purpose = .text → t.command.query = true →
          Sql.mentionsLimit t.command.sql = true →
            sessionLimit (e.context.connection.dispatches ++ first) = none := by
  intro h
  let k : Connection := { catalog := "a" }
  let ops : List Operation :=
    [.make .plain {}, .make .plain {}, .call 0 (.set (.maxRows 5)),
      .call 0 (.query "SELECT a FROM t"), .call 1 (.query "SELECT unlimited FROM t")]
  let e := ((start k).executions ops).getLast (List.cons_ne_nil _ _)
  let t : Dispatch :=
    ⟨Statement.command "SELECT unlimited FROM t" noRowLimit ⟨true, false, .readOnly⟩, "a", true⟩
  have hd : ∀ op ∈ ops, op.direct = false := by simp [ops, Operation.direct]
  have hmax : e.statement.maxRows e.context = .ok 0 := by decide +kernel
  have hsent : e.sent = [] ++ [t] := by decide +kernel
  have hm : Sql.mentionsLimit t.command.sql = true := by decide +kernel
  have hlimit : sessionLimit (e.context.connection.dispatches ++ []) = some 5 := by decide +kernel
  have hnone := h k ops ⟨rfl, rfl⟩ hd e (List.getLast_mem _) hmax [] t hsent rfl rfl hm
  rw [hlimit] at hnone
  simp at hnone

end Session

end SqlSession
