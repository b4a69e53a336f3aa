import SqlSession.Proofs.Obtained
import SqlSession.Proofs.ResultChain
import SqlSession.Proofs.SettingCalls
import SqlSession.Proofs.Succession

/-!
# The shape of results

A result is bound to its statement, in the shape that the statement asks for at that moment: the
first one of a packet when it comes back, every other one when it goes into the pending slot. So the
first two results of an execution report the shape of the dispatch, and the one behind `k + 2`
advances that of the advance number `k + 1`, which made the result before it current.
-/

namespace SqlSession

/-- The execution, unless its checks refuse it. -/
def Execution.checked? (e : Execution) : Option Execution :=
  if e.refusal?.isNone then some e else none

/-- What passes the checks is the execution itself. -/
theorem Execution.eq_of_checked? {e d : Execution} (h : e.checked? = some d) : e = d := by
  unfold checked? at h
  split at h
  · exact Option.some.inj h
  · simp at h

/-- A change that concerns the shape of results. -/
def Setting.shapes : Setting → Bool
  | resultSetType _ => true
  | concurrency _ => true
  | _ => false

/-- The operation leaves the shape that the statement in the place asks for as it is. -/
def Operation.keepsShape (place : Nat) : Operation → Bool
  | .call p asked => p != place || asked.settings.all fun v ↦ !v.shapes
  | _ => true

/-- Serving a request does not change what the packet is bound to. -/
theorem Packet.binding_serve (p : Packet) (q : Request) :
    (p.serve q).packet.head.binding = p.head.binding := by
  by_cases hq : q = .close
  · rw [hq, p.serve_close.1, close]
    split <;> rfl
  · obtain ⟨-, cursor, warnings, hpacket⟩ := p.serve_reading hq
    rw [hpacket]

namespace Statement

/-- The shape in which a call that advances the results binds the one that comes next. -/
def advanceShape? (s : Statement) (c : Context) : Call → Option Binding
  | .more _ => if (s.usable c).isOk then some s.binding else none
  | _ => none

theorem eq_of_mem_advanceShape? {s : Statement} {c : Context} {call : Call} {b : Binding}
    (h : s.advanceShape? c call = some b) : b = s.binding := by
  cases call with
  | more mode =>
    obtain ⟨-, hb⟩ := Option.ite_none_right_eq_some.1 h
    exact (Option.some.inj hb).symm
  | _ => simp [advanceShape?] at h

/-- A statement keeps its number. -/
theorem id_perform (call : Call) (s : Statement) (c : Context) :
    (s.perform c call).statement.id = s.id := by
  have hapart : Apart Statement.id := fun _ _ _ _ _ _ _ ↦ rfl
  refine hapart.perform (.inr fun _ _ ↦ rfl) (.inr fun s c ↦ ?_) s c
  unfold close
  split <;> rfl

/-- The results at hand are bound in the shapes for their places in the chain. -/
structure Reports (t : Statement) (shapes : List Binding) (k : ChainCursor) : Prop where
  length : shapes.length = k.taken + 2
  owner : ∀ b ∈ shapes, b.statement = some t.id
  current : ∀ p, t.current = some p → shapes[k.taken]? = some p.head.binding
  pending : ∀ p, t.pending = some p → shapes[k.taken + 1]? = some p.head.binding

variable {t : Statement} {shapes : List Binding} {k : ChainCursor}

/-- What a statement takes over is bound to it, in its shape. -/
theorem reports_present {s u : Statement} (hb : s.binding = u.binding) (p : Packet) :
    (s.present (u.adopt p)).Reports [u.binding, u.binding] {} where
  length := rfl
  owner b hmem := by
    have hall : b = s.binding := by simpa [hb] using hmem
    rw [hall]
    rfl
  current q hq := by
    rw [← Option.some.inj hq]
    rfl
  pending q hq := by
    obtain ⟨r, -, rfl⟩ := Option.map_eq_some_iff.1 hq
    rw [← hb]
    rfl

/-- The first two results of a successful execution are bound in the shape of the dispatch. -/
theorem reports_attempt {s : Statement} {c : Context} {kind : StatementKind} {sql : String}
    (h : (s.attempt c kind sql).result.isOk = true) :
    (s.attempt c kind sql).statement.Reports [s.binding, s.binding] {} := by
  have hx := s.attempt_course c kind sql
  generalize s.attempt c kind sql = o at h hx ⊢
  cases hx with
  | presented _ _ _ _ => exact reports_present rfl _
  | _ => simp [Except.isOk, Except.toBool] at h

/-- An advance binds the result that comes next in the shape of that moment. -/
theorem Reports.advanced (h : t.Reports shapes k) (mode : MoreResults) :
    (t.advanced mode).Reports (shapes ++ [t.binding]) ⟨k.taken + 1, false⟩ where
  length := by rw [List.length_append, h.length, List.length_singleton]
  owner b hb := by
    rcases List.mem_append.1 hb with hb | hb
    · exact h.owner b hb
    · rw [List.mem_singleton.1 hb]
      rfl
  current p hp := by
    obtain ⟨q, hq, rfl⟩ := Option.map_eq_some_iff.1 hp
    have hlt : k.taken + 1 < shapes.length := by rw [h.length]; exact Nat.lt_succ_self _
    exact (List.getElem?_append_left hlt).trans (h.pending q hq)
  pending p hp := by
    obtain ⟨q, -, rfl⟩ := Option.map_eq_some_iff.1 hp
    have hlast := List.getElem?_concat_length (l := shapes) (a := t.binding)
    rw [h.length] at hlast
    exact hlast

/-- Serving a request binds nothing. -/
theorem Reports.serve (h : t.Reports shapes k) (c : Context) (q : Packet.Request) :
    (t.serveCurrent c q).statement.Reports shapes k := by
  rcases t.serveCurrent_cases c q with ⟨hs, -⟩ | ⟨p, -, hp, -, hs, -⟩
  · rw [hs]
    exact h
  · rw [hs]
    refine ⟨h.length, h.owner, fun r hr ↦ ?_, h.pending⟩
    rw [← Option.some.inj hr, Packet.binding_serve]
    exact h.current p hp

/-- A call that follows an execution binds a result only if it advances. -/
theorem Reports.follow (h : t.Reports shapes k) {call : Call} (hf : call.follows = true)
    (c : Context) :
    (t.perform c call).statement.Reports (shapes ++ (t.advanceShape? c call).toList)
      (k.follow call (t.perform c call).result.isOk) := by
  cases call with
  | more mode =>
    change ((t.advance c mode).answer .flag).statement.Reports
      (shapes ++ (t.advanceShape? c (.more mode)).toList)
      (k.follow (.more mode) ((t.advance c mode).answer .flag).result.isOk)
    cases hu : t.usable c with
    | error e =>
      rw [advance_error hu, advanceShape?, hu]
      exact (List.append_nil shapes).symm ▸ h
    | ok u =>
      rw [advance_ok hu, advanceShape?, hu]
      exact h.advanced mode
  | serve q =>
    have hs := (List.append_nil shapes).symm ▸ h.serve c q
    cases q with
    | close => exact ⟨hs.length, hs.owner, hs.current, hs.pending⟩
    | _ => exact hs
  | _ =>
    obtain ⟨hc, hp⟩ := slots_perform hf (by simp) (by simp) t c
    change (t.perform c _).statement.Reports (shapes ++ []) k
    rw [List.append_nil]
    refine ⟨h.length, ?_, hc ▸ h.current, hp ▸ h.pending⟩
    rw [id_perform]
    exact h.owner

/-- The shape that a statement asks for is the same behind a call that does not change it. -/
theorem binding_perform {call : Call} (h : call.settings.all (fun v ↦ !v.shapes) = true)
    (s : Statement) (c : Context) : (s.perform c call).statement.binding = s.binding := by
  by_cases hset : call.settings = []
  · rw [binding, binding, id_perform, settings_perform hset]
  · cases call with
    | set v =>
      change (s.runSetters c [v.setter]).statement.binding = s.binding
      rw [runSetters]
      cases hv : v.setter s c with
      | error e => rfl
      | ok sc =>
        obtain ⟨-, -, hs, -⟩ := Setting.setter_ok_iff.1 hv
        change sc.1.binding = s.binding
        rw [hs]
        cases v with
        | resultSetType _ => simp [Call.settings, Setting.shapes] at h
        | concurrency _ => simp [Call.settings, Setting.shapes] at h
        | _ => rfl
    | configure g => simp [Call.settings, Config.settings, Setting.shapes] at h
    | _ => exact absurd rfl hset

/-- An execution that its checks refuse leaves the statement as it is. -/
theorem statement_unchecked {e : Execution} (h : e.checked? = none) :
    e.outcome.statement = e.statement := by
  have href : e.refusal? ≠ none := fun heq ↦ by simp [Execution.checked?, heq] at h
  have hx := e.ending
  generalize e.obtained? = obtained at hx
  generalize e.outcome = o at hx ⊢
  cases hx with
  | refused _ => rfl
  | failed hnone _ _ => exact absurd hnone href
  | rejected hnone _ _ _ => exact absurd hnone href
  | presented hnone _ _ _ => exact absurd hnone href

/-- The entries of a batch leave the statement as the last one that passes its checks leaves it. -/
theorem statement_runEntries (entries : List String) (s : Statement) (c : Context) :
    (s.runEntries c entries).statement =
      ((latest? Execution.checked? (s.entryExecutions c entries)).map
        fun e ↦ e.outcome.statement).getD s := by
  induction entries generalizing s c with
  | nil => rfl
  | cons sql rest ih =>
    rw [(s.runEntries_cons c sql rest).1, ih, entryExecutions, latest?_cons]
    cases latest? Execution.checked? ((s.attempt c .update sql).statement.entryExecutions
        (s.afterEntry (s.attempt c .update sql)) rest) with
    | some e => rfl
    | none =>
      rw [Option.none_or, Option.map_none, Option.getD_none]
      cases hcheck : (⟨s, c, .update, sql⟩ : Execution).checked? with
      | none => exact statement_unchecked hcheck
      | some e =>
        rw [← Execution.eq_of_checked? hcheck]
        rfl

/-- A call that executes leaves the statement as the last execution that passes its checks does. -/
theorem statement_perform {s : Statement} {c : Context} {call : Call} {e : Execution}
    (he : latest? Execution.checked? (s.executions c call) = some e) :
    (s.perform c call).statement = e.outcome.statement := by
  cases hs : call.single? with
  | some ks =>
    obtain ⟨f, hf⟩ := perform_single (s := s) (c := c) hs
    rw [executions_single hs, latest?_singleton] at he
    rw [hf, ← Execution.eq_of_checked? he]
    rfl
  | none =>
    cases hq : call.quiet with
    | true =>
      rw [s.executions_quiet hq c] at he
      simp at he
    | false =>
      obtain rfl := Call.eq_runBatch hs hq
      change latest? Execution.checked? (s.batchExecutions c) = some e at he
      change (s.runBatch c).statement = e.outcome.statement
      revert he
      unfold runBatch batchExecutions
      dsimp only
      cases { s with queue := [] }.checkBatch c with
      | error err =>
        intro he
        simp at he
      | ok u =>
        intro he
        have hrun := statement_runEntries s.queue { s with queue := [] } { c with borrowed := true }
        rw [he] at hrun
        dsimp only
        split <;> exact hrun

/-- What a statement shows of a chain of results whose execution was dispatched in one shape, behind
advances with later ones in force. -/
structure ReportsChain (t : Statement) (l : List Response) (asked : Binding)
    (later : List Binding) : Prop where
  /-- Within the chain the response behind so many advances is current. -/
  within : later.length < l.length → ∃ given r shut, l[later.length]? = some given ∧
    t.current = some ⟨r, []⟩ ∧ given.Shows shut r
  beyond : l.length ≤ later.length → t.current = none
  /-- Every result belongs to the statement of the execution. -/
  owner : ∀ p, t.current = some p → p.head.binding.statement = asked.statement
  /-- The first two results report the shape of the dispatch. -/
  first : ∀ p, t.current = some p → later.length < 2 → p.head.binding = asked
  /-- Every other result reports the shape in force at the advance that made the one before it
  current. -/
  further : ∀ p, t.current = some p → ∀ n, later.length = n + 2 → later[n]? = some p.head.binding

/-- Slots that hold a chain and are bound in these shapes show both. -/
theorem Reports.reportsChain {l : List Response} {asked : Binding} {later : List Binding}
    (h : t.Reports ([asked, asked] ++ later) k) (hl : t.Holds l k) :
    t.ReportsChain l asked later := by
  have htaken : later.length = k.taken := by
    have hlen := h.length
    rw [List.length_append, List.length_cons, List.length_singleton] at hlen
    omega
  have hcurrent {p : Packet} (hp : t.current = some p) :
      (asked :: asked :: later)[later.length]? = some p.head.binding := by
    rw [htaken]
    exact h.current p hp
  constructor
  · intro hlt
    rw [htaken] at hlt ⊢
    obtain ⟨given, r, hr, hc, hs⟩ := hl.showsChain.within hlt
    exact ⟨given, r, k.shut, hr, hc, hs⟩
  · intro hge
    exact (hl.showsChain.beyond (htaken ▸ hge)).1
  · intro p hp
    have hasked := h.owner asked (by simp)
    rw [hasked]
    exact h.owner _ (List.mem_of_getElem? (hcurrent hp))
  · intro p hp hlt
    have hget := hcurrent hp
    generalize later.length = n at hlt hget
    match n, hlt with
    | 0, _ => exact (Option.some.inj hget).symm
    | 1, _ => exact (Option.some.inj hget).symm
  · intro p hp n hn
    have hget := hcurrent hp
    rw [hn] at hget
    exact hget

end Statement

namespace Session

/-- The shape in which an operation that advances the results of the statement in a place binds the
one that comes next. -/
def advanceShape? (s : Session) (place : Nat) : Operation → Option Binding
  | .call p call =>
    if p = place then (s.statement? p).bind fun t ↦ t.advanceShape? s.context call else none
  | _ => none

/-- The shapes in force at the advances of the statement in a place, in the order of the
advances. -/
def advanceShapes (s : Session) (place : Nat) : List Operation → List Binding
  | [] => []
  | op :: rest => (s.advanceShape? place op).toList ++ (s.step op).2.advanceShapes place rest

variable {s : Session} {place : Nat} {t : Statement} {op : Operation} {ops : List Operation}

theorem advanceShape?_call (ht : s.statement? place = some t) (call : Call) :
    s.advanceShape? place (.call place call) = t.advanceShape? s.context call := by
  rw [advanceShape?, if_pos rfl, ht, Option.bind_some]

theorem advanceShape?_elsewhere (h : ∀ call, op ≠ .call place call) :
    s.advanceShape? place op = none := by
  cases op with
  | call p call =>
    have hp : p ≠ place := fun heq ↦ h call (by rw [heq])
    exact if_neg hp
  | _ => rfl

/-- An operation that follows an execution binds a result only if it advances. -/
theorem reports_step {shapes : List Binding} {k : ChainCursor} (ht : s.statement? place = some t)
    (hk : t.Reports shapes k) (hf : op.follows place = true) :
    ∃ t', (s.step op).2.statement? place = some t' ∧
      t'.Reports (shapes ++ (s.advanceShape? place op).toList)
        (k.along place op (s.step op).1) := by
  rcases step_follows ht hf with ⟨call, rfl, hcall, ha, hs⟩ | ⟨hne, hs⟩
  · refine ⟨_, hs, ?_⟩
    rw [ha, ChainCursor.along_call, advanceShape?_call ht]
    exact hk.follow hcall s.context
  · refine ⟨t, hs, ?_⟩
    rw [ChainCursor.along_elsewhere hne, advanceShape?_elsewhere hne, Option.toList_none,
      List.append_nil]
    exact hk

/-- Operations that follow an execution bind one result at each advance. -/
theorem reports_run {shapes : List Binding} {k : ChainCursor} (ht : s.statement? place = some t)
    (hk : t.Reports shapes k) (hf : ∀ op ∈ ops, op.follows place = true) :
    ∃ t', (s.run ops).statement? place = some t' ∧
      t'.Reports (shapes ++ s.advanceShapes place ops) (k.run place s ops) := by
  induction ops generalizing s t shapes k with
  | nil =>
    rw [advanceShapes, List.append_nil]
    exact ⟨t, ht, hk⟩
  | cons op rest ih =>
    obtain ⟨hop, hrest⟩ := List.forall_mem_cons.1 hf
    obtain ⟨t', ht', hk'⟩ := reports_step ht hk hop
    rw [advanceShapes, ← List.append_assoc]
    exact ih ht' hk' hrest

/-- Where nothing changes the shape that the statement asks for, it is in force at every advance. -/
theorem eq_of_mem_advanceShapes (ht : s.statement? place = some t)
    (hf : ∀ op ∈ ops, op.follows place = true)
    (hk : ∀ op ∈ ops, op.keepsShape place = true) {b : Binding}
    (hb : b ∈ s.advanceShapes place ops) : b = t.binding := by
  induction ops generalizing s t with
  | nil => simp [advanceShapes] at hb
  | cons op rest ih =>
    obtain ⟨hop, hrest⟩ := List.forall_mem_cons.1 hf
    obtain ⟨hkeep, hkrest⟩ := List.forall_mem_cons.1 hk
    rw [advanceShapes, List.mem_append] at hb
    rcases step_follows ht hop with ⟨call, rfl, -, -, hs⟩ | ⟨hne, hs⟩
    · have hcall : call.settings.all (fun v ↦ !v.shapes) = true := by
        simpa [Operation.keepsShape] using hkeep
      rcases hb with hb | hb
      · rw [advanceShape?_call ht] at hb
        exact Statement.eq_of_mem_advanceShape? (Option.mem_toList.1 hb)
      · rw [ih hs hrest hkrest hb, Statement.binding_perform hcall]
    · rcases hb with hb | hb
      · rw [advanceShape?_elsewhere hne] at hb
        simp at hb
      · exact ih hs hrest hkrest hb

/-- Behind a call whose last execution that passes its checks succeeds, the statement shows the
responses of the packet that the connection gave last for it. They all belong to the statement. The
first two report the shape that was set at the dispatch, and every other one the shape that was set
at the advance before the one that made it current, so that all report the shape of the dispatch if
nobody changes it in between. -/
theorem results_report_shapes {call : Call} {e : Execution} {after : List Operation}
    (ht : s.statement? place = some t)
    (he : latest? Execution.checked? (t.executions s.context call) = some e)
    (hok : e.outcome.result.isOk = true) (hf : ∀ op ∈ after, op.follows place = true) :
    let s' := (s.step (.call place call)).2
    ∃ p, e.given.getLast? = some p ∧ ∃ u, (s'.run after).statement? place = some u ∧
      u.ReportsChain p.toList e.statement.binding (s'.advanceShapes place after) ∧
        ((∀ op ∈ after, op.keepsShape place = true) →
          ∀ q, u.current = some q → q.head.binding = e.statement.binding) := by
  intro s'
  obtain ⟨-, -, hs⟩ := step_call ht call
  rw [Statement.statement_perform he] at hs
  obtain ⟨p, hp, hholds⟩ := Statement.holds_attempt hok
  obtain ⟨u, hu, hl⟩ := holds_run hs hholds hf
  obtain ⟨v, hv, hr⟩ := reports_run hs (Statement.reports_attempt hok) hf
  obtain rfl := Option.some.inj (hu.symm.trans hv)
  have hchain := hr.reportsChain hl
  refine ⟨p, hp, u, hu, hchain, fun hkeep q hq ↦ ?_⟩
  have hsame {b : Binding} (hb : b ∈ s'.advanceShapes place after) : b = e.statement.binding := by
    have hapart : Statement.Apart Statement.binding := fun _ _ _ _ _ _ _ ↦ rfl
    rw [eq_of_mem_advanceShapes hs hf hkeep hb]
    exact hapart.attempt e.statement e.context e.kind e.sql
  by_cases hlt : (s'.advanceShapes place after).length < 2
  · exact hchain.first q hq hlt
  · obtain ⟨n, hn⟩ := Nat.exists_eq_add_of_le' (Nat.le_of_not_lt hlt)
    exact hsame (List.mem_of_getElem? (hchain.further q hq n hn))

/-- A chain of four results: between the advances first the type and then the concurrency is set. -/
theorem results_report_shapes_reshaped :
    let r : Response := { rows := some ⟨[], []⟩ }
    let k : Connection := { catalog := "main", rules := [⟨"SELECT", fun _ ↦ .ok ⟨r, [r, r, r]⟩⟩] }
    let after : List Operation :=
      [.call 0 (.set (.resultSetType .scrollInsensitive)), .call 0 (.more .closeCurrent),
        .call 0 (.set (.concurrency .updatable)), .call 0 (.more .keepCurrent),
        .call 0 (.more .closeAll)]
    let s := (start k).run [.make .plain {}]
    let s' := (s.step (.call 0 (.query "SELECT 1"))).2
    ∃ t e, s.statement? 0 = some t ∧
      latest? Execution.checked? (t.executions s.context (.query "SELECT 1")) = some e ∧
      e.outcome.result.isOk = true ∧ (∀ op ∈ after, op.follows 0 = true) ∧
      ∃ u, (s'.run after).statement? 0 = some u ∧
        u.ReportsChain [r, r, r, r] ⟨some 1, .forwardOnly, .readOnly⟩
          [⟨some 1, .scrollInsensitive, .readOnly⟩, ⟨some 1, .scrollInsensitive, .updatable⟩,
            ⟨some 1, .scrollInsensitive, .updatable⟩] := by
  intro r k after s s'
  have ht : s.statement? 0 = some ((s.statement? 0).get rfl) := (Option.some_get rfl).symm
  let e : Execution := ⟨(s.statement? 0).get rfl, s.context, .query, "SELECT 1"⟩
  have hpass : e.refusal?.isNone = true := by decide +kernel
  have he : latest? Execution.checked? (e.statement.executions s.context (.query "SELECT 1")) =
      some e := by
    rw [Statement.executions_single rfl, latest?_singleton]
    exact if_pos hpass
  have hok : e.outcome.result.isOk = true := by decide +kernel
  have hf : ∀ op ∈ after, op.follows 0 = true := by decide
  have hp : e.given.getLast? = some ⟨r, [r, r, r]⟩ := by decide +kernel
  have hasked : e.statement.binding = ⟨some 1, .forwardOnly, .readOnly⟩ := by decide +kernel
  have hlater : s'.advanceShapes 0 after = [⟨some 1, .scrollInsensitive, .readOnly⟩,
      ⟨some 1, .scrollInsensitive, .updatable⟩, ⟨some 1, .scrollInsensitive, .updatable⟩] := by
    decide +kernel
  obtain ⟨q, hq, u, hu, hchain, -⟩ := results_report_shapes ht he hok hf
  obtain rfl := Option.some.inj (hq.symm.trans hp)
  rw [hasked, hlater] at hchain
  exact ⟨_, e, ht, he, hok, hf, u, hu, hchain⟩

/-- The result behind two advances reports a type that was not set when its execution was
dispatched. -/
theorem third_result_reshaped :
    let r : Response := { rows := some ⟨[], []⟩ }
    let k : Connection := { catalog := "main", rules := [⟨"SELECT", fun _ ↦ .ok ⟨r, [r, r]⟩⟩] }
    let after : List Operation :=
      [.call 0 (.set (.resultSetType .scrollInsensitive)), .call 0 (.more .closeCurrent),
        .call 0 (.more .closeCurrent)]
    let s := (start k).run [.make .plain {}]
    let executed := s.step (.call 0 (.query "SELECT 1"))
    executed.1.isOk = true ∧ (∀ op ∈ after, op.follows 0 = true) ∧
      (s.statement? 0).map (fun t ↦ t.binding.resultSetType) = some .forwardOnly ∧
      (executed.2.statement? 0).map (fun t ↦ t.pending.map fun p ↦ p.toList.length) =
        some (some 2) ∧
      ((executed.2.run after).statement? 0).map
          (fun t ↦ t.current.map fun p ↦ p.head.binding.resultSetType) =
        some (some .scrollInsensitive) := by
  decide +kernel

end Session

end SqlSession
