import SqlSession.Proofs.Configuration
import SqlSession.Proofs.SettingRanges

/-!
# Valid configurations

A configuration is accepted exactly if its values are valid: within their ranges, the max field size
within the packet budget, and the fetch size within the row limit that is in force behind the
configuration. Otherwise it is refused for the first value that is not. A new statement takes the
row limit from its configuration alone. A statement that has a row limit already keeps it under a
configuration without one, and the fetch size of the configuration has to be within it.
-/

namespace SqlSession

namespace Config

/-- The error, unless the condition holds. -/
def errorUnless (p : Prop) [Decidable p] (e : SqlError) : List SqlError := if p then [] else [e]

@[simp]
theorem errorUnless_eq_nil_iff {p : Prop} [Decidable p] {e : SqlError} :
    errorUnless p e = [] ↔ p := by
  unfold errorUnless
  split <;> simp [*]

/-- The values of a configuration are in their ranges, its max field size within a packet budget and
its fetch size within a row limit, if that is one. -/
structure Valid (g : Config) (budget : Nat) (limit : Int32) : Prop where
  maxFieldSize : ∀ n ∈ g.maxFieldSize, 0 ≤ n ∧ n.toInt ≤ budget
  maxRows : 0 ≤ g.maxRows ∧ g.maxRows ≤ greatestRowLimit
  fetchSize : g.fetchSize = streamRows ∨ 0 ≤ g.fetchSize ∧ (0 < limit → g.fetchSize ≤ limit)
  queryTimeout : 0 ≤ g.queryTimeout

/-- The errors for the values that are not valid, in the order in which the values are looked at. -/
def violations (g : Config) (budget : Nat) (limit : Int32) : List SqlError :=
  (g.maxFieldSize.toList.flatMap fun n ↦
      errorUnless (0 ≤ n) (.invalidArgument .maxFieldSize)
        ++ errorUnless (n.toInt ≤ (budget : Int)) (.limitExceeded n budget))
    ++ errorUnless (0 ≤ g.maxRows ∧ g.maxRows ≤ greatestRowLimit)
      (.invalidArgument (.maxRows g.maxRows greatestRowLimit))
    ++ errorUnless (g.fetchSize = streamRows ∨ 0 ≤ g.fetchSize ∧ (0 < limit → g.fetchSize ≤ limit))
      (.invalidArgument .fetchSize)
    ++ errorUnless (0 ≤ g.queryTimeout) (.invalidArgument .queryTimeout)

/-- A configuration is valid if nothing is wrong with its values. -/
theorem violations_eq_nil_iff {g : Config} {budget : Nat} {limit : Int32} :
    g.violations budget limit = [] ↔ g.Valid budget limit := by
  simp only [violations, List.append_eq_nil_iff, List.flatMap_eq_nil_iff, Option.mem_toList,
    errorUnless_eq_nil_iff]
  constructor
  · rintro ⟨⟨⟨hs, hr⟩, hf⟩, ht⟩
    exact ⟨hs, hr, hf, ht⟩
  · rintro ⟨hs, hr, hf, ht⟩
    exact ⟨⟨⟨hs, hr⟩, hf⟩, ht⟩

/-- The row limit in force behind a configuration: one without a row limit leaves the limit that
stands. -/
def limitOver (g : Config) (standing : Int32) : Int32 :=
  if g.maxRows = 0 then standing else g.maxRows

/-- Over no row limit it is the one of the configuration, as far as fetch sizes are concerned. -/
theorem violations_over_none (g : Config) (budget : Nat) :
    g.violations budget (g.limitOver noRowLimit) = g.violations budget g.maxRows := by
  unfold limitOver
  by_cases hz : g.maxRows = 0
  · have hnone : ¬(0 : Int32) < noRowLimit := by decide
    have hzero : ¬(0 : Int32) < 0 := by decide
    simp [violations, hz, hnone, hzero]
  · rw [if_neg hz]

end Config

namespace Setting

/-- The first fault among changes that are made in their order. -/
def firstFault? (s : Statement) (c : Context) : List Setting → Option SqlError
  | [] => none
  | v :: vs => (v.fault? s c).or (firstFault? (s.adjust v.apply) (v.settle c) vs)

/-- A change of a setting does not end the use of a statement. -/
theorem usable_adjust (v : Setting) (s : Statement) (c : Context) :
    (s.adjust v.apply).usable (v.settle c) = s.usable c := by
  cases v <;> rfl

end Setting

/-- Changes for a statement that can be used are refused for the first fault among them. -/
theorem Statement.runSetters_result {s : Statement} {c : Context} (hu : s.usable c = .ok ())
    (vs : List Setting) :
    (s.runSetters c (vs.map Setting.setter)).result =
      match Setting.firstFault? s c vs with
      | some e => .error e
      | none => .ok () := by
  induction vs generalizing s c with
  | nil => rfl
  | cons v vs ih =>
    rw [List.map_cons, runSetters, Setting.setter_eq, hu, Except.bind, Setting.firstFault?]
    cases v.fault? s c with
    | some e => rfl
    | none => exact ih ((v.usable_adjust s c).trans hu)

namespace Setting

/-- What is wrong with the value of a change over a packet budget and a row limit. -/
def errors (budget : Nat) (limit : Int32) : Setting → List SqlError
  | maxFieldSize n =>
    Config.errorUnless (0 ≤ n) (.invalidArgument .maxFieldSize)
      ++ Config.errorUnless (n.toInt ≤ (budget : Int)) (.limitExceeded n budget)
  | maxRows n =>
    Config.errorUnless (0 ≤ n ∧ n ≤ greatestRowLimit)
      (.invalidArgument (.maxRows n greatestRowLimit))
  | fetchSize n =>
    Config.errorUnless (n = streamRows ∨ 0 ≤ n ∧ (0 < limit → n ≤ limit))
      (.invalidArgument .fetchSize)
  | queryTimeout n => Config.errorUnless (0 ≤ n) (.invalidArgument .queryTimeout)
  | _ => []

/-- Over a mutex that can be taken, the fault of a change is what is first wrong with its value. -/
theorem fault?_eq_head? (v : Setting) (s : Statement) {c : Context} (hp : c.poisoned = false) :
    v.fault? s c = (v.errors c.connection.packetBudget s.settings.maxRows).head? := by
  cases v with
  | maxFieldSize n =>
    simp only [fault?, errors, Config.errorUnless]
    by_cases hn : n < 0
    · simp [hn, Int32.not_le.2 hn]
    · by_cases hb : n.toInt ≤ c.connection.packetBudget
      · simp [hn, hp, hb, Int32.not_lt.1 hn]
      · simp [hn, hp, hb, Int32.not_lt.1 hn, Int.not_le.1 hb]
  | maxRows n =>
    have hrange : 0 ≤ n ∧ n ≤ greatestRowLimit ↔ ¬(n < 0 ∨ greatestRowLimit < n) := by
      rw [not_or, Int32.not_lt, Int32.not_lt]
    simp only [fault?, errors, Config.errorUnless, hrange]
    by_cases hn : n < 0 ∨ greatestRowLimit < n <;> simp [hn, hp]
  | fetchSize n =>
    simp only [fault?, errors, Config.errorUnless, ← allowsFetchSize_iff]
    cases s.allowsFetchSize n <;> rfl
  | queryTimeout n =>
    simp only [fault?, errors, Config.errorUnless, ← Int32.not_lt]
    by_cases hn : n < 0 <;> simp [hn]
  | _ => rfl

@[simp]
theorem poisoned_settle (v : Setting) (c : Context) : (v.settle c).poisoned = c.poisoned := by
  cases v <;> rfl

end Setting

/-- Over a mutex that can be taken, the first fault of a configuration is its first value that is
not valid. -/
theorem Config.firstFault?_settings (g : Config) (s : Statement) {c : Context}
    (hp : c.poisoned = false) :
    Setting.firstFault? s c g.settings =
      (g.violations c.connection.packetBudget (g.limitOver s.settings.maxRows)).head? := by
  have hzero : (0 : Int32) ≤ greatestRowLimit := by decide
  unfold settings violations limitOver
  cases g.maxFieldSize <;> by_cases hz : g.maxRows = 0 <;>
    simp [Setting.firstFault?, Setting.fault?_eq_head?, Setting.errors, Setting.apply,
      Statement.adjust, errorUnless, Option.or_assoc, hp, hz, hzero]

/-- A configuration has no fault if it is valid and the mutex can be taken where it needs it. -/
theorem Config.firstFault?_eq_none_iff {g : Config} {s : Statement} {c : Context} :
    Setting.firstFault? s c g.settings = none ↔
      g.Valid c.connection.packetBudget (g.limitOver s.settings.maxRows) ∧
        (c.poisoned = true → g.maxFieldSize = none ∧ g.maxRows = 0) := by
  cases hp : c.poisoned with
  | false =>
    rw [g.firstFault?_settings s hp, List.head?_eq_none_iff, violations_eq_nil_iff]
    simp
  | true =>
    have hzero : (0 : Int32) ≤ greatestRowLimit := by decide
    rw [← violations_eq_nil_iff]
    unfold settings violations limitOver
    cases g.maxFieldSize <;> by_cases hz : g.maxRows = 0 <;>
      simp [Setting.firstFault?, Setting.fault?_eq_none_iff, Setting.Allowed, Setting.locks, hp, hz,
        hzero]

/-- The settings behind an accepted configuration. -/
theorem Config.applyAll_settings (g : Config) (t : Settings) :
    Setting.applyAll g.settings t =
      { maxFieldSize := g.maxFieldSize.getD t.maxFieldSize
        maxRows := g.limitOver t.maxRows
        fetchSize := g.fetchSize
        queryTimeout := g.queryTimeout
        escapeProcessing := g.escapeProcessing
        resultSetType := g.resultSetType
        concurrency := g.concurrency } := by
  unfold settings limitOver
  cases g.maxFieldSize <;> by_cases hz : g.maxRows = 0 <;>
    simp [Setting.applyAll, Setting.apply, hz]

/-- The values of a configuration are in force: they are read back. -/
structure Config.InForce (g : Config) (t : Statement) (c : Context) : Prop where
  maxFieldSize : ∀ n ∈ g.maxFieldSize, t.maxFieldSize c = .ok n
  fetchSize : t.fetchSize c = .ok g.fetchSize
  queryTimeout : t.queryTimeout c = .ok g.queryTimeout
  escapeProcessing : t.escapeProcessing c = .ok g.escapeProcessing
  resultSetType : t.resultSetType c = .ok g.resultSetType
  concurrency : t.concurrency c = .ok g.concurrency

namespace Statement

/-- A configuration is accepted by a statement that can be used if it has no fault, and refused for
its first one. -/
theorem configure_result {s : Statement} {c : Context} (hu : s.usable c = .ok ()) (g : Config) :
    (s.configure c g).result =
      match Setting.firstFault? s c g.settings with
      | some e => .error e
      | none => .ok () := by
  rw [configure, configSetters_eq, runSetters_result hu]

/-- A configuration does not end the use of a statement. -/
theorem usable_configure (s : Statement) (c : Context) (g : Config) :
    (s.configure c g).statement.usable (s.configure c g).context = s.usable c :=
  runSetters_keeps (R := fun s c s' c' ↦ s'.usable c' = s.usable c) (fun _ _ ↦ rfl)
    (fun h₁ h₂ ↦ h₂.trans h₁)
    (fun v s s' c c' h ↦ by
      obtain ⟨-, -, rfl, rfl⟩ := Setting.setter_ok_iff.1 h
      exact v.usable_adjust s c)
    (fun _ hf ↦ mem_configSetters hf) s c

/-- An accepted configuration tells the connection of its row limit, if it has one, and of nothing
else. -/
theorem configure_connection (s : Statement) (c : Context) (g : Config)
    (h : (s.configure c g).result = .ok ()) :
    (s.configure c g).context.connection =
      if g.maxRows = 0 then c.connection else c.connection.announceLimit := by
  have hlimits : g.settings.any Setting.limits = true ↔ g.maxRows ≠ 0 := by
    unfold Config.settings
    cases g.maxFieldSize <;> by_cases hz : g.maxRows = 0 <;> simp [hz, Setting.limits]
  have happlied := s.runSetters_applied c g.settings
  rw [← configSetters_eq, ← configure] at happlied
  generalize s.configure c g = o at happlied h
  cases happlied with
  | all hk =>
    rw [hk, Setting.tellAll_eq g.countP_limits]
    by_cases hz : g.maxRows = 0
    · rw [if_pos hz, if_neg (by simp [hlimits, hz])]
    · rw [if_neg hz, if_pos (hlimits.2 hz)]
  | upTo hv hk hr => cases h

/-- A configuration is accepted by a statement that can be used if its values are valid and the
mutex can be taken where it needs it. -/
theorem configure_ok_iff {s : Statement} {c : Context} (hu : s.usable c = .ok ()) {g : Config} :
    (s.configure c g).result = .ok () ↔
      g.Valid c.connection.packetBudget (g.limitOver s.settings.maxRows) ∧
        (c.poisoned = true → g.maxFieldSize = none ∧ g.maxRows = 0) := by
  rw [configure_result hu, ← Config.firstFault?_eq_none_iff]
  cases Setting.firstFault? s c g.settings <;> simp

/-- The settings of a statement behind a configuration that it has accepted. -/
theorem settings_configure {s : Statement} {c : Context} {g : Config}
    (h : (s.configure c g).result = .ok ()) :
    (s.configure c g).statement.settings = Setting.applyAll g.settings s.settings := by
  obtain ⟨-, hs⟩ | ⟨e, he, -⟩ := s.configure_left c g
  · rw [hs, adjust]
  · rw [h] at he
    cases he

/-- Behind an accepted configuration its values are in force. The row limit is its own, or the one
that the statement had if it has none. -/
theorem inForce_configure {s : Statement} {c : Context} (hu : s.usable c = .ok ()) {g : Config}
    (h : (s.configure c g).result = .ok ()) :
    g.InForce (s.configure c g).statement (s.configure c g).context ∧
      (s.configure c g).statement.maxRows (s.configure c g).context =
        if g.maxRows = 0 then s.maxRows c else .ok g.maxRows := by
  obtain ⟨hvalid, -⟩ := (configure_ok_iff hu).1 h
  have hsettings := settings_configure h
  rw [g.applyAll_settings] at hsettings
  have hafter := s.usable_configure c g
  rw [hu] at hafter
  have hread {α : Type} (f : Statement → α) :
      (s.configure c g).statement.read (s.configure c g).context f =
        .ok (f (s.configure c g).statement) := by
    rw [read, hafter, Except.map]
  constructor
  · constructor
    · intro n hn
      rw [maxFieldSize, hread, hsettings, Option.mem_def.1 hn, Option.getD_some]
    · rw [fetchSize, hread, hsettings]
    · rw [queryTimeout, hread, hsettings]
    · rw [escapeProcessing, hread, hsettings]
    · rw [resultSetType, hread, hsettings]
    · rw [concurrency, hread, hsettings]
  · rw [maxRows, hread, hsettings, Config.limitOver]
    by_cases hz : g.maxRows = 0
    · rw [if_pos hz, if_pos hz, maxRows, read, hu, Except.map]
    · rw [if_neg hz, if_neg hz, if_neg (Int32.not_lt.2 hvalid.maxRows.1)]

end Statement

namespace Session

/-- A configuration that is accepted is in force, except that a statement keeps its row limit under
a configuration without one. Whether it is accepted depends on its values, on the connection, and on
the row limit that is in force behind it: its own, or the one of the statement if it has none. -/
theorem configuration_in_force (connection : Connection) (ops : List Operation) :
    let s := (start connection).run ops
    ∀ place t, s.statement? place = some t → ∀ g : Config,
      let r := s.step (.call place (.configure g))
      ((∃ a, r.1 = .ok a) ↔
        t.closed = false ∧ s.context.held = true ∧
          g.Valid s.context.connection.packetBudget (g.limitOver t.settings.maxRows) ∧
          (s.context.poisoned = true → g.maxFieldSize = none ∧ g.maxRows = 0)) ∧
      ∀ a, r.1 = .ok a → ∃ t', r.2.statement? place = some t' ∧ g.InForce t' r.2.context ∧
        t'.maxRows r.2.context = if g.maxRows = 0 then t.maxRows s.context else .ok g.maxRows := by
  intro s place t ht g r
  have hs : s.AtRest := atRest_run connection ops
  have hunusable := hs.unusable_iff (List.mem_of_getElem? (statement?_eq_some.1 ht))
  obtain ⟨ha, hc, hafter⟩ := step_call ht (.configure g)
  cases hu : t.usable s.context with
  | error e =>
    rw [Statement.perform_unusable hu (by simp)] at ha
    have hgone : t.closed = true ∨ s.context.held = false := hunusable.1 (by simp [hu])
    constructor
    · rw [ha]
      refine iff_of_false (by simp) ?_
      rintro ⟨hopen, hheld, -⟩
      simp [hopen, hheld] at hgone
    · intro a hr
      rw [ha] at hr
      cases hr
  | ok u =>
    have hopen : t.closed = false ∧ s.context.held = true := by
      simpa [hu, not_or] using hunusable
    have hperform : t.perform s.context (.configure g) =
        (t.configure s.context g).answer fun _ ↦ .done := rfl
    rw [hperform] at ha hc hafter
    have hok : (∃ a, r.1 = .ok a) ↔ (t.configure s.context g).result = .ok () := by
      rw [ha, Outcome.answer]
      cases (t.configure s.context g).result <;> simp [Except.map]
    constructor
    · rw [hok, Statement.configure_ok_iff hu]
      simp [hopen]
    · intro a hr
      refine ⟨_, hafter, ?_⟩
      rw [hc]
      exact Statement.inForce_configure hu (hok.1 ⟨a, hr⟩)

/-- A row limit of ten gives way to the one of a configuration, and that stays under one without a
row limit whose fetch size is as large. -/
theorem configuration_in_force_twice :
    let g : Config :=
      { maxFieldSize := some 0, maxRows := 20, fetchSize := streamRows, queryTimeout := 3,
        escapeProcessing := false, resultSetType := .scrollSensitive, concurrency := .updatable }
    let h : Config := { fetchSize := 20 }
    let ops : List Operation :=
      [.make .plain {}, .call 0 (.set (.maxRows 10)), .call 0 (.configure g)]
    let s := (start { catalog := "main" }).run ops
    let r := s.step (.call 0 (.configure h))
    ∃ t, s.statement? 0 = some t ∧ t.closed = false ∧ s.context.held = true ∧
      t.settings.maxRows = 20 ∧ h.Valid s.context.connection.packetBudget 20 ∧ r.1 = .ok .done ∧
      ∃ t', r.2.statement? 0 = some t' ∧ h.InForce t' r.2.context ∧
        t'.maxRows r.2.context = .ok 20 := by
  intro g h ops s r
  have ht : s.statement? 0 = some ((s.statement? 0).get (by decide +kernel)) :=
    (Option.some_get _).symm
  obtain ⟨haccepted, hforce⟩ := configuration_in_force { catalog := "main" } ops 0 _ ht h
  have hr : r.1 = .ok .done := by decide +kernel
  obtain ⟨hopen, hheld, hvalid, -⟩ := haccepted.1 ⟨_, hr⟩
  obtain ⟨t', ht', hin, hrows⟩ := hforce _ hr
  refine ⟨_, ht, hopen, hheld, by decide +kernel, hvalid, hr, t', ht', hin, ?_⟩
  rw [hrows]
  decide +kernel

/-- A configuration without a row limit leaves one of ten in force, and one with a fetch size above
it is refused for it, but accepted by a statement without a row limit. -/
theorem former_limit_remains :
    let ops : List Operation :=
      [.make .plain {}, .call 0 (.set (.maxRows 10)), .make .plain {}]
    let s := (start { catalog := "main" }).run ops
    let kept := s.step (.call 0 (.configure {}))
    let wide : Config := { fetchSize := 20 }
    kept.1 = .ok .done ∧
      (kept.2.statement? 0).map (fun t ↦ t.maxRows kept.2.context) = some (.ok 10) ∧
      (s.step (.call 0 (.configure wide))).1 = .error (.invalidArgument .fetchSize) ∧
      (s.step (.call 1 (.configure wide))).1 = .ok .done := by
  decide +kernel

/-- Over an open connection whose mutex can be taken a statement is made. -/
theorem create_ok {c : Context} (hfree : c.poisoned = false) (hopen : c.connection.closed = false)
    (id : Nat) (catalog : Option String) : ∃ t, Statement.create c id catalog = .ok t := by
  unfold Statement.create Context.lock
  rw [if_neg (by simp [hfree])]
  dsimp only
  rw [if_neg (by simp [hopen])]
  exact ⟨_, rfl⟩

/-- A new statement takes a configuration exactly if its values are valid, and is refused for the
first that is not. The connection is told of a row limit once, and nothing else happens to it. -/
theorem configured_statement {s : Session} (hheld : s.context.held = true)
    (hfree : s.context.poisoned = false) (hopen : s.context.connection.closed = false)
    (g : Config) (setup : Setup) :
    let k := s.context.connection
    let r := s.step (.make (.config g) setup)
    ((∃ a, r.1 = .ok a) ↔ g.Valid k.packetBudget g.maxRows) ∧
      (∀ e, r.1 = .error e ↔ (g.violations k.packetBudget g.maxRows).head? = some e) ∧
      ∀ a, r.1 = .ok a →
        r.2.context.connection = if g.maxRows = 0 then k else k.announceLimit := by
  intro k r
  obtain ⟨t, ht⟩ := create_ok hfree hopen (s.made + 1) (Origin.config g).catalog?
  have hnew := Statement.create_new ht
  have hu : t.usable s.context = .ok () := by
    simp [Statement.usable, Context.alive, hnew.closed, hnew.attached, hheld]
  have hresult := t.configure_result hu g
  rw [g.firstFault?_settings t hfree, hnew.maxRows, g.violations_over_none] at hresult
  have hk := t.configure_connection s.context g
  have hr : r = s.make (.config g) setup := if_pos hheld
  rw [hr, ← Config.violations_eq_nil_iff, ← List.head?_eq_none_iff]
  unfold make
  rw [ht]
  dsimp only
  generalize t.configure s.context g = o at hresult hk ⊢
  obtain ⟨result, t', c'⟩ := o
  dsimp only at hresult
  cases hv : (g.violations k.packetBudget g.maxRows).head? with
  | none =>
    rw [hv] at hresult
    rw [hresult] at hk ⊢
    exact ⟨by simp [place], by simp [place], fun a _ ↦ hk rfl⟩
  | some e =>
    rw [hv] at hresult
    rw [hresult]
    exact ⟨by simp, by simp, fun a ha ↦ by cases ha⟩

/-- Beside a statement with a row limit, a configuration is refused for its max field size and not
for its fetch size, which is above its row limit as well. One with a fetch size up to its row limit
is accepted, and the connection is told of that once more. -/
theorem configured_statement_beside :
    let ops : List Operation := [.make .plain {}, .call 0 (.set (.maxRows 10))]
    let s := (start { catalog := "main", packetBudget := 100 }).run ops
    let bad : Config := { maxFieldSize := some 101, maxRows := 20, fetchSize := 30 }
    let good : Config := { maxFieldSize := some 100, maxRows := 20, fetchSize := 20 }
    let made := s.step (.make (.config good) {})
    s.context.held = true ∧ s.context.poisoned = false ∧ s.context.connection.closed = false ∧
      (s.step (.make (.config bad) {})).1 = .error (.limitExceeded 101 100) ∧
      (∃ a, made.1 = .ok a) ∧ s.context.connection.announcements = 1 ∧
      made.2.context.connection.announcements = 2 := by
  intro ops s bad good made
  have hheld : s.context.held = true := rfl
  have hfree : s.context.poisoned = false := rfl
  have hopen : s.context.connection.closed = false := rfl
  obtain ⟨-, hrefused, -⟩ := configured_statement hheld hfree hopen bad {}
  obtain ⟨haccepted, -, htold⟩ := configured_statement hheld hfree hopen good {}
  have hgood : good.Valid s.context.connection.packetBudget good.maxRows :=
    Config.violations_eq_nil_iff.1 (by decide +kernel)
  obtain ⟨a, ha⟩ := haccepted.2 hgood
  refine ⟨hheld, hfree, hopen, (hrefused _).2 (by decide +kernel), ⟨a, ha⟩, rfl, ?_⟩
  rw [htold a ha]
  decide +kernel

end Session

end SqlSession
