import SqlSession.Proofs.ResultChain
import SqlSession.Proofs.Setter

/-!
# Refused configurations

A single setter makes its change whole or not at all. A configuration goes through setters one after
the other, and one that is refused takes nothing back: the changes before the refused one stay in
force, and a connection that was told of a row limit stays so, also where the configuration was that
of a new statement, which is dropped again.
-/

namespace SqlSession

/-- The change is one of the row limit. -/
def Setting.limits : Setting → Bool
  | .maxRows _ => true
  | _ => false

/-- Of changes with one row limit at most, the connection is told that one. -/
theorem Setting.tellAll_eq {vs : List Setting} (h : vs.countP Setting.limits ≤ 1)
    (k : Connection) : tellAll vs k = if vs.any Setting.limits then k.announceLimit else k := by
  induction vs generalizing k with
  | nil => rfl
  | cons v vs ih =>
    rw [tellAll, List.foldl_cons, ← tellAll, List.any_cons]
    cases hv : v.limits with
    | true =>
      rw [List.countP_cons_of_pos hv] at h
      have hnone : vs.countP Setting.limits = 0 := by omega
      have hany : vs.any Setting.limits = false := by
        rw [List.any_eq_false]
        exact List.countP_eq_zero.1 hnone
      rw [ih (by omega), hany]
      cases v with
      | maxRows n => rfl
      | _ => simp [limits] at hv
    | false =>
      rw [List.countP_cons_of_neg (by simp [hv])] at h
      rw [ih h]
      cases v with
      | maxRows n => simp [limits] at hv
      | _ => rfl

/-- A configuration has one row limit at most. -/
theorem Config.countP_limits (g : Config) : g.settings.countP Setting.limits ≤ 1 := by
  unfold Config.settings
  cases g.maxFieldSize <;> by_cases h : g.maxRows = 0 <;>
    simp [h, Setting.limits, List.countP_cons]

/-- Of the first changes of a configuration, the connection is told the row limit. -/
theorem Config.tellAll_prefix {g : Config} {done rest : List Setting}
    (h : g.settings = done ++ rest) (k : Connection) :
    Setting.tellAll done k = if done.any Setting.limits then k.announceLimit else k := by
  apply Setting.tellAll_eq
  have hone := g.countP_limits
  rw [h, List.countP_append] at hone
  omega

/-- What a refused configuration leaves behind: the changes before one that is refused with the
error have been made to the statement, and the connection has been told of a row limit if there is
one among them. -/
def Statement.LeftBy (t : Statement) (k : Connection) (g : Config) (e : SqlError)
    (t' : Statement) (c' : Context) : Prop :=
  ∃ done v rest, g.settings = done ++ v :: rest ∧ t' = t.adjust (Setting.applyAll done) ∧
    c'.connection = (if done.any Setting.limits then k.announceLimit else k) ∧
    v.setter t' c' = .error e

/-- A refused configuration leaves the connection as it was, or told of its row limit. -/
theorem Statement.LeftBy.connection {t t' : Statement} {k : Connection} {g : Config}
    {e : SqlError} {c' : Context} (h : t.LeftBy k g e t' c') :
    c'.connection = k ∨ g.maxRows ≠ 0 ∧ c'.connection = k.announceLimit := by
  obtain ⟨done, v, rest, hg, -, hk, -⟩ := h
  cases hany : done.any Setting.limits with
  | false => exact .inl (by simpa [hany] using hk)
  | true =>
    refine .inr ⟨fun hzero ↦ ?_, by simpa [hany] using hk⟩
    have hall : g.settings.any Setting.limits = true := by rw [hg, List.any_append, hany]; rfl
    unfold Config.settings at hall
    cases hm : g.maxFieldSize <;> simp [hm, hzero, Setting.limits] at hall

/-- A configuration makes all its changes, or those before one that is refused. -/
theorem Statement.configure_left (t : Statement) (c : Context) (g : Config) :
    ((t.configure c g).result = .ok () ∧
        (t.configure c g).statement = t.adjust (Setting.applyAll g.settings)) ∨
      ∃ e, (t.configure c g).result = .error e ∧
        t.LeftBy c.connection g e (t.configure c g).statement (t.configure c g).context := by
  have ha := t.runSetters_applied c g.settings
  rw [← configSetters_eq] at ha
  unfold configure
  generalize t.runSetters c (configSetters g) = o at ha ⊢
  cases ha with
  | all _ => exact .inl ⟨rfl, rfl⟩
  | @upTo done rest v e c' hv hk hr =>
    rw [Config.tellAll_prefix hv] at hk
    exact .inr ⟨e, rfl, done, v, rest, hv, rfl, hk, hr⟩

namespace Session

/-- A new statement whose configuration is refused adds no statement, but the connection may have
been told of the row limit. -/
theorem make_refused {s : Session} {g : Config} {setup : Setup} {e : SqlError}
    (h : (s.make (.config g) setup).1 = .error e) :
    (s.make (.config g) setup).2.statements = s.statements ∧
      ((s.make (.config g) setup).2.context.connection = s.context.connection ∨
        g.maxRows ≠ 0 ∧ (s.make (.config g) setup).2.context.connection =
          s.context.connection.announceLimit) := by
  unfold make at h ⊢
  cases ht : Statement.create s.context (s.made + 1) (Origin.config g).catalog? with
  | error e' => exact ⟨rfl, .inl rfl⟩
  | ok t =>
    rw [ht] at h
    dsimp only at h ⊢
    have hleft := t.configure_left s.context g
    generalize t.configure s.context g = o at h hleft ⊢
    obtain ⟨result, t', c'⟩ := o
    cases result with
    | ok u => simp [place] at h
    | error e' =>
      obtain ⟨hr, -⟩ | ⟨e'', -, hl⟩ := hleft
      · simp at hr
      · refine ⟨rfl, ?_⟩
        have hclose : (t'.close c').2.connection = c'.connection := by
          unfold Statement.close
          split <;> simp
        dsimp only
        rw [hclose]
        exact hl.connection

/-- A configuration that is refused to a statement leaves the changes before the refused one in
force. One that is refused to a new statement adds no statement. In both cases the connection may
have been told of the row limit. -/
theorem configuration_refused (s : Session) (g : Config) (e : SqlError) :
    (∀ place t, s.statement? place = some t →
      (s.step (.call place (.configure g))).1 = .error e →
        ∃ t', (s.step (.call place (.configure g))).2.statement? place = some t' ∧
          t.LeftBy s.context.connection g e t' (s.step (.call place (.configure g))).2.context) ∧
    ∀ setup, (s.step (.make (.config g) setup)).1 = .error e →
      (s.step (.make (.config g) setup)).2.statements = s.statements ∧
        ((s.step (.make (.config g) setup)).2.context.connection = s.context.connection ∨
          g.maxRows ≠ 0 ∧ (s.step (.make (.config g) setup)).2.context.connection =
            s.context.connection.announceLimit) := by
  constructor
  · intro place t ht h
    obtain ⟨ha, hc, hs⟩ := step_call ht (.configure g)
    rw [ha] at h
    refine ⟨_, hs, ?_⟩
    rw [hc]
    obtain ⟨hr, -⟩ | ⟨e', hr, hl⟩ := t.configure_left s.context g
    · simp [Statement.perform, Outcome.answer, hr, Except.map] at h
    · have he : e' = e := by
        simpa [Statement.perform, Outcome.answer, hr, Except.map] using h
      exact he ▸ hl
  · intro setup h
    unfold step at h ⊢
    dsimp only at h ⊢
    split at h
    · next hheld =>
      rw [if_pos hheld]
      exact make_refused h
    · simp at h

/-- The fetch size is above the row limit that the same configuration has just set. -/
theorem configuration_refused_late :
    let g : Config := { maxRows := 10, fetchSize := 20 }
    let s := (start { catalog := "main" }).run [.make .plain {}]
    let s' := (s.step (.call 0 (.configure g))).2
    (s.step (.call 0 (.configure g))).1 = .error (.invalidArgument .fetchSize) ∧
      ∃ t t', s.statement? 0 = some t ∧ s'.statement? 0 = some t' ∧
        t.LeftBy s.context.connection g (.invalidArgument .fetchSize) t' s'.context := by
  intro g s s'
  have ht : s.statement? 0 = some ((s.statement? 0).get rfl) := (Option.some_get rfl).symm
  have he : (s.step (.call 0 (.configure g))).1 = .error (.invalidArgument .fetchSize) := rfl
  obtain ⟨t', ht', hl⟩ := (configuration_refused s g _).1 0 _ ht he
  exact ⟨he, _, t', ht, ht', hl⟩

/-- The row limit of a refused configuration stays in force, and the connection stays told of it,
also where the new statement is gone. -/
theorem refused_configuration_remains :
    let g : Config := { maxRows := 10, fetchSize := 20 }
    let s := (start { catalog := "main" }).run [.make .plain {}]
    let called := s.step (.call 0 (.configure g))
    let made := s.step (.make (.config g) {})
    called.1 = .error (.invalidArgument .fetchSize) ∧
      (s.statement? 0).map (fun t ↦ t.settings.maxRows) = some noRowLimit ∧
      (called.2.statement? 0).map (fun t ↦ t.settings.maxRows) = some 10 ∧
      s.context.connection.announcements = 0 ∧
      called.2.context.connection.announcements = 1 ∧
      made.1 = .error (.invalidArgument .fetchSize) ∧
      made.2.context.connection.limitsRows = true ∧
      s.context.connection.limitsRows = false :=
  ⟨rfl, rfl, rfl, rfl, rfl, rfl, rfl, rfl⟩

end Session

end SqlSession
