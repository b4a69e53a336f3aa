import SqlSession.Proofs.Context
import SqlSession.Session.Operation

/-!
# What a setter does

A change of a setting is refused for the first fault that it has, or it stores its value and does
nothing else, except that a row limit is announced to the connection. A configuration is a list of
such changes; run in their order, they are made up to the first that is refused.
-/

namespace SqlSession

namespace Setting

/-- The settings with the change made. -/
def apply : Setting → Settings → Settings
  | maxFieldSize v, t => { t with maxFieldSize := v }
  | maxRows v, t => { t with maxRows := if v = 0 then noRowLimit else v }
  | fetchSize v, t => { t with fetchSize := v }
  | queryTimeout v, t => { t with queryTimeout := v }
  | fetchDirection _, t => t
  | escapeProcessing on, t => { t with escapeProcessing := on }
  | resultSetType v, t => { t with resultSetType := v }
  | concurrency v, t => { t with concurrency := v }

/-- The settings with changes made in their order. -/
def applyAll (vs : List Setting) (t : Settings) : Settings := vs.foldl (fun t v ↦ v.apply t) t

/-- The connection behind a change: it is told of a row limit and of nothing else. -/
def tell : Setting → Connection → Connection
  | maxRows _, k => k.announceLimit
  | _, k => k

/-- The connection behind changes in their order. -/
def tellAll (vs : List Setting) (k : Connection) : Connection := vs.foldl (fun k v ↦ v.tell k) k

/-- The surroundings behind a change. One that looks at the connection leaves the mutex free. -/
def settle : Setting → Context → Context
  | maxFieldSize _, c => c.unlock
  | maxRows _, c => { c with connection := c.connection.announceLimit }.unlock
  | _, c => c

/-- Why the change is refused to a statement that can be used: a value out of its range first, then
a mutex that cannot be taken, then a value that the connection does not allow. -/
def fault? (s : Statement) (c : Context) : Setting → Option SqlError
  | maxFieldSize v =>
    if v < 0 then some (.invalidArgument .maxFieldSize)
    else if c.poisoned then some (.internal .lockFailed)
    else if v.toInt > c.connection.packetBudget then
      some (.limitExceeded v c.connection.packetBudget)
    else none
  | maxRows v =>
    if v < 0 ∨ greatestRowLimit < v then some (.invalidArgument (.maxRows v greatestRowLimit))
    else if c.poisoned then some (.internal .lockFailed)
    else none
  | fetchSize v => if s.allowsFetchSize v then none else some (.invalidArgument .fetchSize)
  | queryTimeout v => if v < 0 then some (.invalidArgument .queryTimeout) else none
  | _ => none

/-- A setter refuses for the fault of its change, or makes the change. -/
theorem setter_eq (v : Setting) (s : Statement) (c : Context) :
    v.setter s c = (s.usable c).bind fun _ ↦
      match v.fault? s c with
      | some e => .error e
      | none => .ok (s.adjust v.apply, v.settle c) := by
  cases hu : s.usable c with
  | error e =>
    cases v <;>
      simp [setter, Statement.setMaxFieldSize, Statement.setMaxRows, Statement.setFetchSize,
        Statement.setQueryTimeout, Statement.setFetchDirection, Statement.setEscapeProcessing,
        Statement.setResultSetType, Statement.setConcurrency, hu, Except.bind, Except.map]
  | ok u =>
    cases v with
    | maxFieldSize n =>
      simp only [setter, Statement.setMaxFieldSize, fault?, Context.lock, hu, Except.bind]
      by_cases hn : n < 0
      · simp [hn]
      · by_cases hp : c.poisoned = true
        · simp [hn, hp]
        · by_cases hb : n.toInt > c.connection.packetBudget
          · simp [hn, hp, hb]
          · rw [if_neg hn, if_neg hp, if_neg hn, if_neg hp, if_neg hb]
            exact if_neg hb
    | maxRows n =>
      simp only [setter, Statement.setMaxRows, fault?, Context.lock, hu, Except.bind]
      by_cases hn : n < 0 ∨ greatestRowLimit < n
      · simp [hn]
      · by_cases hp : c.poisoned = true
        · simp [hn, hp]
        · rw [if_neg hn, if_neg hp, if_neg hn, if_neg hp]
          rfl
    | fetchSize n =>
      simp only [setter, Statement.setFetchSize, fault?, hu, Except.bind]
      cases s.allowsFetchSize n <;> rfl
    | queryTimeout n =>
      simp only [setter, Statement.setQueryTimeout, fault?, hu, Except.bind]
      split <;> rfl
    | fetchDirection d => simp only [setter, Statement.setFetchDirection, hu]; rfl
    | escapeProcessing on => simp only [setter, Statement.setEscapeProcessing, hu]; rfl
    | resultSetType t => simp only [setter, Statement.setResultSetType, hu]; rfl
    | concurrency t => simp only [setter, Statement.setConcurrency, hu]; rfl

/-- A change is made for a statement that can be used where it has no fault. -/
theorem setter_ok_iff {v : Setting} {s s' : Statement} {c c' : Context} :
    v.setter s c = .ok (s', c') ↔
      s.usable c = .ok () ∧ v.fault? s c = none ∧ s' = s.adjust v.apply ∧ c' = v.settle c := by
  rw [setter_eq]
  cases s.usable c with
  | error e => simp [Except.bind]
  | ok u =>
    cases v.fault? s c with
    | some e => simp [Except.bind]
    | none => simp [Except.bind, eq_comm]

/-- A change is refused where the statement cannot be used, or else for its fault. -/
theorem setter_error_iff {v : Setting} {s : Statement} {c : Context} {e : SqlError} :
    v.setter s c = .error e ↔
      s.usable c = .error e ∨ s.usable c = .ok () ∧ v.fault? s c = some e := by
  rw [setter_eq]
  cases s.usable c with
  | error e' => simp [Except.bind]
  | ok u => cases v.fault? s c <;> simp [Except.bind]

@[simp]
theorem connection_settle (v : Setting) (c : Context) :
    (v.settle c).connection = v.tell c.connection := by
  cases v <;> rfl

end Setting

/-- The changes that a configuration asks for, in their order. -/
def Config.settings (g : Config) : List Setting :=
  (g.maxFieldSize.toList.map .maxFieldSize)
    ++ (if g.maxRows = 0 then [] else [.maxRows g.maxRows])
    ++ [.fetchSize g.fetchSize, .queryTimeout g.queryTimeout,
      .escapeProcessing g.escapeProcessing, .resultSetType g.resultSetType,
      .concurrency g.concurrency]

namespace Statement

theorem configSetters_eq (g : Config) : configSetters g = g.settings.map Setting.setter := by
  unfold configSetters Config.settings
  rw [List.map_append, List.map_append, List.map_map]
  congr 2
  split <;> rfl

/-- How far changes are made: all of them, or those before one that is refused. -/
inductive Applied (s : Statement) (c : Context) (vs : List Setting) : Outcome Unit → Prop
  | all {c' : Context} (hk : c'.connection = Setting.tellAll vs c.connection) :
    Applied s c vs ⟨.ok (), s.adjust (Setting.applyAll vs), c'⟩
  | upTo {done rest : List Setting} {v : Setting} {e : SqlError} {c' : Context}
      (hv : vs = done ++ v :: rest) (hk : c'.connection = Setting.tellAll done c.connection)
      (hr : v.setter (s.adjust (Setting.applyAll done)) c' = .error e) :
    Applied s c vs ⟨.error e, s.adjust (Setting.applyAll done), c'⟩

/-- Changes are made in their order up to the first that is refused. -/
theorem runSetters_applied (s : Statement) (c : Context) (vs : List Setting) :
    s.Applied c vs (s.runSetters c (vs.map Setting.setter)) := by
  induction vs generalizing s c with
  | nil => exact .all rfl
  | cons v vs ih =>
    rw [List.map_cons, runSetters]
    cases hv : v.setter s c with
    | error e => exact @Applied.upTo s c _ [] vs v e c rfl rfl hv
    | ok sc =>
      obtain ⟨s', c'⟩ := sc
      obtain ⟨-, -, hs, hc⟩ := Setting.setter_ok_iff.1 hv
      have hk : c'.connection = v.tell c.connection := by rw [hc, Setting.connection_settle]
      have hrest := ih s' c'
      dsimp only
      generalize s'.runSetters c' (vs.map Setting.setter) = o at hrest ⊢
      rw [hs] at hrest
      cases hrest with
      | @all d h =>
        rw [hk] at h
        have hall : d.connection = Setting.tellAll (v :: vs) c.connection := h
        exact .all hall
      | @upTo done rest w e d hvs h hr =>
        rw [hk] at h
        have hdone : d.connection = Setting.tellAll (v :: done) c.connection := h
        rw [hvs]
        exact .upTo rfl hdone hr

end Statement

end SqlSession
