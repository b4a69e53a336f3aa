import SqlSession.Proofs.SessionSteps
import SqlSession.Proofs.SettingCalls

/-!
# The fetch size and the row limit

A fetch size is the marker for rows one by one, or it is not negative and within the row limit.
Setting a fetch size looks at the row limit, but setting a row limit does not look at the fetch
size: a row limit below it takes effect and leaves it as it is. Every other operation, and every row
limit that leaves room for the fetch size, keeps the two in order.
-/

namespace SqlSession

/-- The fetch size is the marker for rows one by one, or it is not negative and within the row
limit, if there is one. -/
def Settings.FetchWithin (t : Settings) : Prop :=
  t.fetchSize = streamRows ∨ 0 ≤ t.fetchSize ∧ (t.maxRows ≤ 0 ∨ t.fetchSize ≤ t.maxRows)

instance (t : Settings) : Decidable t.FetchWithin := inferInstanceAs (Decidable (_ ∨ _))

/-- Each row limit among the changes leaves room for the fetch size that is in force when it is
set, the given one at first. -/
def Setting.LeaveRoom (fetchSize : Int32) : List Setting → Prop
  | [] => True
  | .maxRows n :: rest => (0 < n → fetchSize ≤ n) ∧ LeaveRoom fetchSize rest
  | .fetchSize n :: rest => LeaveRoom n rest
  | _ :: rest => LeaveRoom fetchSize rest

/-- The row limit of a configuration is set before its fetch size. -/
theorem Config.leaveRoom_settings {g : Config} {fetchSize : Int32} :
    Setting.LeaveRoom fetchSize g.settings ↔ (0 < g.maxRows → fetchSize ≤ g.maxRows) := by
  unfold Config.settings
  cases g.maxFieldSize <;> by_cases h : g.maxRows = 0 <;>
    simp [Setting.LeaveRoom, h]

namespace Statement

/-- A change that is made keeps the fetch size within the row limit, unless it is a row limit that
leaves no room. -/
theorem fetchWithin_set {v : Setting} {s s' : Statement} {c c' : Context}
    (h : v.setter s c = .ok (s', c')) (hr : Setting.LeaveRoom s.settings.fetchSize [v])
    (hw : s.settings.FetchWithin) : s'.settings.FetchWithin := by
  obtain ⟨-, hf, rfl, -⟩ := Setting.setter_ok_iff.1 h
  cases v with
  | maxRows n =>
    change s.settings.fetchSize = streamRows ∨ 0 ≤ s.settings.fetchSize ∧
      ((if n = 0 then noRowLimit else n) ≤ 0 ∨
        s.settings.fetchSize ≤ if n = 0 then noRowLimit else n)
    rcases hw with hm | ⟨h0, -⟩
    · exact .inl hm
    · refine .inr ⟨h0, ?_⟩
      by_cases hn : n = 0
      · rw [if_pos hn]
        exact .inl (by decide)
      · rw [if_neg hn]
        by_cases hpos : 0 < n
        · exact .inr (hr.1 hpos)
        · exact .inl (Int32.not_lt.1 hpos)
  | fetchSize n =>
    have ha : s.allowsFetchSize n = true := by
      cases ha : s.allowsFetchSize n with
      | true => rfl
      | false => simp [Setting.fault?, ha] at hf
    simp only [allowsFetchSize, Bool.and_eq_true, Bool.or_eq_true, decide_eq_true_eq,
      beq_iff_eq] at ha
    change n = streamRows ∨ 0 ≤ n ∧ (s.settings.maxRows ≤ 0 ∨ n ≤ s.settings.maxRows)
    rcases ha with ⟨h0 | hm, hl⟩
    · exact .inr ⟨h0, hl⟩
    · exact .inl hm
  | _ => exact hw

/-- Changes that leave room keep the fetch size within the row limit up to the first that is
refused. -/
theorem fetchWithin_runSetters {vs : List Setting} {s : Statement} {c : Context}
    (hr : Setting.LeaveRoom s.settings.fetchSize vs) (hw : s.settings.FetchWithin) :
    (s.runSetters c (vs.map Setting.setter)).statement.settings.FetchWithin := by
  induction vs generalizing s c with
  | nil => exact hw
  | cons v vs ih =>
    rw [List.map_cons, runSetters]
    cases hv : v.setter s c with
    | error e => exact hw
    | ok sc =>
      obtain ⟨-, -, hs, -⟩ := Setting.setter_ok_iff.1 hv
      have hroom : Setting.LeaveRoom s.settings.fetchSize [v] ∧
          Setting.LeaveRoom sc.1.settings.fetchSize vs := by
        rw [hs]
        cases v with
        | maxRows n => exact ⟨⟨hr.1, trivial⟩, hr.2⟩
        | _ => exact ⟨trivial, hr⟩
      exact ih hroom.2 (fetchWithin_set hv hroom.1 hw)

/-- A call whose row limits leave room keeps the fetch size within the row limit. -/
theorem fetchWithin_perform {call : Call} {s : Statement} (c : Context)
    (hr : Setting.LeaveRoom s.settings.fetchSize call.settings) (hw : s.settings.FetchWithin) :
    (s.perform c call).statement.settings.FetchWithin := by
  by_cases h : call.settings = []
  · rw [settings_perform h]
    exact hw
  · rw [perform_settings h]
    exact fetchWithin_runSetters hr hw

/-- A new statement has its fetch size within its row limit. -/
theorem New.fetchWithin {t : Statement} (h : t.New) : t.settings.FetchWithin := by
  right
  rw [h.fetchSize, h.maxRows]
  exact ⟨by decide, .inl (by decide)⟩

end Statement

namespace Session

/-- Making a statement adds none, or one whose fetch size is within its row limit. -/
theorem fetchWithin_make {s : Session} (origin : Origin) (setup : Setup) {t : Statement}
    (h : some t ∈ (s.make origin setup).2.statements) :
    some t ∈ s.statements ∨ t.settings.FetchWithin := by
  unfold make at h
  split at h
  · exact .inl h
  · next t₀ ht₀ =>
    have hnew := Statement.create_new ht₀
    split at h
    · next g =>
      have hroom : Setting.LeaveRoom t₀.settings.fetchSize g.settings := by
        rw [Config.leaveRoom_settings, hnew.fetchSize]
        exact fun hpos ↦ Int32.le_of_lt hpos
      have hw := Statement.fetchWithin_runSetters (c := s.context) hroom hnew.fetchWithin
      rw [← Statement.configSetters_eq] at hw
      unfold Statement.configure at h
      generalize t₀.runSetters s.context (Statement.configSetters g) = o at h hw
      obtain ⟨result, t', c'⟩ := o
      cases result with
      | error e => exact .inl h
      | ok u =>
        rcases List.mem_append.1 h with h | h
        · exact .inl h
        · rw [Option.some.inj (List.mem_singleton.1 h)]
          exact .inr hw
    · rcases List.mem_append.1 h with h | h
      · exact .inl h
      · rw [Option.some.inj (List.mem_singleton.1 h)]
        exact .inr hnew.fetchWithin

/-- The row limits that an operation asks for leave room for the fetch size of their statement. -/
def LeavesRoom (s : Session) : Operation → Prop
  | .call place call =>
    ∀ t, s.statement? place = some t → Setting.LeaveRoom t.settings.fetchSize call.settings
  | _ => True

/-- An operation whose row limits leave room keeps all fetch sizes within their row limits. -/
theorem fetchWithin_step {s : Session} {op : Operation} (hr : s.LeavesRoom op)
    (hs : ∀ t, some t ∈ s.statements → t.settings.FetchWithin) :
    ∀ t, some t ∈ (s.step op).2.statements → t.settings.FetchWithin := by
  intro t ht
  cases op with
  | make origin setup =>
    unfold step at ht
    dsimp only at ht
    split at ht
    · exact (fetchWithin_make origin setup ht).elim (hs t) id
    · exact hs t ht
  | call place call =>
    unfold step at ht
    dsimp only at ht
    split at ht
    · exact hs t ht
    · next u hu =>
      rcases List.mem_or_eq_of_mem_set ht with h | h
      · exact hs t h
      · rw [Option.some.inj h]
        have hmem := List.mem_of_getElem? (statement?_eq_some.1 hu)
        exact Statement.fetchWithin_perform s.context (hr u hu) (hs u hmem)
  | drop place =>
    have hstep := s.step_stepped (.drop place)
    generalize (s.step (.drop place)).2 = s' at hstep ht
    cases hstep with
    | idle => exact hs t ht
    | dropped _ =>
      rcases List.mem_or_eq_of_mem_set ht with h | h
      · exact hs t h
      · simp at h
    | underwent _ _ => exact hs t ht
  | connection call =>
    unfold step at ht
    dsimp only at ht
    split at ht <;> exact hs t ht
  | poison => exact hs t ht
  | dropConnection => exact hs t ht

/-- Operations whose row limits leave room keep all fetch sizes within their row limits. -/
theorem fetchWithin_run {s : Session} {ops : List Operation}
    (h : ∀ before op after, ops = before ++ op :: after → (s.run before).LeavesRoom op)
    (hs : ∀ t, some t ∈ s.statements → t.settings.FetchWithin) :
    ∀ t, some t ∈ (s.run ops).statements → t.settings.FetchWithin := by
  induction ops generalizing s with
  | nil => exact hs
  | cons op rest ih =>
    have hfirst : s.LeavesRoom op := h [] op rest rfl
    refine ih (fun before op' after hsplit ↦ ?_) (fetchWithin_step hfirst hs)
    exact h (op :: before) op' after (by rw [hsplit]; rfl)

/-- While every row limit that is set leaves room for the fetch size of its statement, every fetch
size is within its row limit. -/
theorem fetchSize_within {connection : Connection} {ops : List Operation}
    (h : ∀ before op after, ops = before ++ op :: after →
      ((start connection).run before).LeavesRoom op) :
    ∀ t, some t ∈ ((start connection).run ops).statements → t.settings.FetchWithin :=
  fetchWithin_run h (by simp [start])

/-- A row limit below a fetch size that is in force takes effect. -/
theorem fetchSize_exceeds_limit :
    let ops : List Operation :=
      [.make .plain {}, .call 0 (.set (.fetchSize 100)), .call 0 (.set (.maxRows 10))]
    ∃ t, ((start { catalog := "main" }).run ops).statement? 0 = some t ∧ t.closed = false ∧
      t.settings.fetchSize = 100 ∧ t.settings.maxRows = 10 ∧ ¬t.settings.FetchWithin :=
  ⟨_, rfl, by decide +kernel⟩

/-- A row limit is set and then a fetch size within it. -/
theorem fetchSize_within_limited :
    let ops : List Operation :=
      [.make .plain {}, .call 0 (.set (.maxRows 10)), .call 0 (.set (.fetchSize 5))]
    (∀ before op after, ops = before ++ op :: after →
      ((start { catalog := "main" }).run before).LeavesRoom op) ∧
    ∃ t, ((start { catalog := "main" }).run ops).statement? 0 = some t ∧
      t.settings.fetchSize = 5 ∧ t.settings.FetchWithin := by
  intro ops
  have hroom : ∀ before op after, ops = before ++ op :: after →
      ((start { catalog := "main" }).run before).LeavesRoom op := by
    intro before op after h
    match before with
    | [] =>
      rw [← (List.cons.inj h).1]
      trivial
    | [first] =>
      have hrest := List.cons.inj (List.cons.inj h).2
      rw [← (List.cons.inj h).1, ← hrest.1]
      intro t ht
      rw [← Option.some.inj ht]
      exact ⟨fun _ ↦ by decide, trivial⟩
    | [first, second] =>
      have hrest := List.cons.inj (List.cons.inj (List.cons.inj h).2).2
      rw [← hrest.1]
      exact fun _ _ ↦ trivial
    | _ :: _ :: _ :: _ => simp [ops] at h
  let s := (start { catalog := "main" }).run ops
  have ht : s.statement? 0 = some ((s.statement? 0).get rfl) := (Option.some_get rfl).symm
  exact ⟨hroom, _, ht, by decide +kernel,
    fetchSize_within hroom _ (List.mem_of_getElem? (statement?_eq_some.1 ht))⟩

end Session

end SqlSession
