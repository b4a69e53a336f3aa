import SqlSession.Proofs.StepLaw

/-!
# The steps of a session

`Session.Stepped` lists what an operation of a session can come to, and `Session.executions` the
single executions of a run with the state that each starts from.
-/

namespace SqlSession

/-- A statement as it is made: open, with nothing in its slots and its queue, and with neither row
limit nor fetch size. -/
structure Statement.New (t : Statement) : Prop where
  attached : t.attached = true
  current : t.current = none
  pending : t.pending = none
  retained : t.retained = []
  maxRows : t.settings.maxRows = noRowLimit
  fetchSize : t.settings.fetchSize = 0
  closed : t.closed = false

theorem Statement.create_new {c : Context} {id : Nat} {catalog : Option String} {t : Statement}
    (h : Statement.create c id catalog = .ok t) : t.New := by
  unfold Statement.create at h
  split at h
  · simp at h
  · split at h
    · simp at h
    · rw [← Except.ok.inj h]
      exact ⟨rfl, rfl, rfl, rfl, rfl, rfl, rfl⟩

/-- Nothing has been sent over the connection yet. -/
structure Connection.Fresh (c : Connection) : Prop where
  dispatches : c.dispatches = []
  issued : c.issued = 0

/-- A connection whose answer to a query is a result with rows and an update count behind it, each
with a hook. -/
def Connection.chained : Connection where
  catalog := "main"
  rules := [⟨"SELECT", fun _ ↦ .ok
    ⟨{ rows := some ⟨[], []⟩, release := some { tag := "rows" } },
      [{ updateCount := 3, release := some { tag := "count" } }]⟩⟩]

/-- The application sends a command itself. -/
def Operation.direct : Operation → Bool
  | .connection (.execute _) => true
  | _ => false

namespace Session

/-- What an operation of a session can come to. -/
inductive Stepped (s : Session) : Operation → Session → Prop
  /-- Nothing changes. -/
  | idle (op : Operation) : Stepped s op s
  /-- A new statement took all settings and went into the next place. -/
  | made (origin : Origin) (setup : Setup) {t : Statement} {fs : List Setter} (ht : t.New)
      (hf : ∀ f ∈ fs, ∃ v : Setting, f = v.setter) :
    Stepped s (.make origin setup)
      { context := (t.runSetters s.context fs).context
        statements :=
          s.statements ++ [some { (t.runSetters s.context fs).statement with setup }]
        made := s.made + 1 }
  /-- A new statement refused a setting and was closed. -/
  | unmade (origin : Origin) (setup : Setup) {t : Statement} {fs : List Setter} (ht : t.New)
      (hf : ∀ f ∈ fs, ∃ v : Setting, f = v.setter) :
    Stepped s (.make origin setup)
      { s with
        context := ((t.runSetters s.context fs).statement.close
          (t.runSetters s.context fs).context).2
        made := s.made + 1 }
  | called {place : Nat} {t : Statement} (h : s.statements[place]? = some (some t))
      (call : Call) :
    Stepped s (.call place call)
      { s with
        context := (t.perform s.context call).context
        statements := s.statements.set place (t.perform s.context call).statement }
  | dropped {place : Nat} {t : Statement} (h : s.statements[place]? = some (some t)) :
    Stepped s (.drop place)
      { s with context := (t.close s.context).2, statements := s.statements.set place none }
  | beside (call : ConnectionCall) :
    Stepped s (.connection call) { s with context := (connectionCall s.context call).2 }
  | underwent (op : Operation) (f : Hook.Effect) :
    Stepped s op { s with context := s.context.undergo f }

/-- A statement is in a place if the place holds it. -/
theorem statement?_eq_some {s : Session} {place : Nat} {t : Statement} :
    s.statement? place = some t ↔ s.statements[place]? = some (some t) := by
  simp [statement?, Option.join_eq_some_iff]

/-- A call of a statement answers for it and changes it and what all statements share. -/
theorem step_call_eq {s : Session} {place : Nat} {t : Statement}
    (ht : s.statement? place = some t) (call : Call) :
    s.step (.call place call) =
      ((t.perform s.context call).result,
        { s with
          context := (t.perform s.context call).context
          statements := s.statements.set place (some (t.perform s.context call).statement) }) := by
  unfold step
  dsimp only
  rw [ht]

/-- A statement that is put back into its place changes nothing. -/
theorem set_statement {s : Session} {place : Nat} {t : Statement}
    (ht : s.statement? place = some t) : s.statements.set place (some t) = s.statements := by
  obtain ⟨hlt, hget⟩ := List.getElem?_eq_some_iff.1 (statement?_eq_some.1 ht)
  rw [← hget]
  exact List.set_getElem_self hlt

/-- Making a statement changes nothing, or a new statement takes the settings of its origin, none
but for a configuration, up to the first that it refuses. It goes into the next place if it took
all of them, and is closed else. -/
theorem step_make (s : Session) (origin : Origin) (setup : Setup) :
    (s.step (.make origin setup)).2 = s ∨
      ∃ t fs, Statement.create s.context (s.made + 1) origin.catalog? = .ok t ∧
        (∀ f ∈ fs, ∃ v : Setting, f = v.setter) ∧
        ((s.step (.make origin setup)).2 =
            { context := (t.runSetters s.context fs).context
              statements :=
                s.statements ++ [some { (t.runSetters s.context fs).statement with setup }]
              made := s.made + 1 } ∨
          (s.step (.make origin setup)).2 =
            { s with
              context := ((t.runSetters s.context fs).statement.close
                (t.runSetters s.context fs).context).2
              made := s.made + 1 }) := by
  unfold step make
  dsimp only
  split
  · split
    · exact .inl rfl
    · next t ht =>
      right
      split
      · next g =>
        refine ⟨t, Statement.configSetters g, ht, fun f hf ↦ Statement.mem_configSetters hf, ?_⟩
        unfold Statement.configure
        generalize t.runSetters s.context (Statement.configSetters g) = o
        obtain ⟨result, t', c'⟩ := o
        cases result with
        | ok u => exact .inl rfl
        | error e => exact .inr rfl
      · exact ⟨t, [], ht, by simp, .inl rfl⟩
  · exact .inl rfl

/-- Every operation comes to one of the listed ends. -/
theorem step_stepped (s : Session) (op : Operation) : s.Stepped op (s.step op).2 := by
  cases op with
  | make origin setup =>
    rcases s.step_make origin setup with h | ⟨t, fs, ht, hf, h | h⟩
    · rw [h]
      exact .idle _
    · rw [h]
      exact .made origin setup (Statement.create_new ht) hf
    · rw [h]
      exact .unmade origin setup (Statement.create_new ht) hf
  | call place call =>
    unfold step
    dsimp only
    split
    · exact .idle _
    · next t ht => exact .called (statement?_eq_some.1 ht) call
  | drop place =>
    unfold step
    dsimp only
    split
    · exact .idle _
    · exact .idle _
    · next t ht => exact .dropped ht
  | connection call =>
    unfold step
    dsimp only
    split
    · exact .beside call
    · exact .idle _
  | poison => exact .underwent _ .poison
  | dropConnection => exact .underwent _ .dropConnection

/-- The executions of an operation. -/
def executionsOf (s : Session) : Operation → List Execution
  | .call place call =>
    match s.statement? place with
    | some t => t.executions s.context call
    | none => []
  | _ => []

/-- The executions of a run, each with the state that it starts from. -/
def executions (s : Session) : List Operation → List Execution
  | [] => []
  | op :: rest => s.executionsOf op ++ (s.step op).2.executions rest

/-- What each operation keeps a run keeps. -/
theorem run_induction {Inv : Session → Prop} {ops : List Operation}
    (step : ∀ s, ∀ op ∈ ops, Inv s → Inv (s.step op).2) {s : Session} (h : Inv s) :
    Inv (s.run ops) := by
  induction ops generalizing s with
  | nil => exact h
  | cons op rest ih =>
    exact ih (fun t o ho ↦ step t o (by simp [ho])) (step s op (by simp) h)

/-- An execution of a run belongs to a call of a statement in a state that the run reaches. -/
theorem mem_executions {e : Execution} {s : Session} {ops : List Operation}
    (h : e ∈ s.executions ops) :
    ∃ before place call after t, ops = before ++ .call place call :: after ∧
      (s.run before).statement? place = some t ∧
      e ∈ t.executions (s.run before).context call := by
  induction ops generalizing s with
  | nil => simp [executions] at h
  | cons op rest ih =>
    rcases List.mem_append.1 h with h | h
    · unfold executionsOf at h
      split at h
      · split at h
        · next t ht => exact ⟨[], _, _, rest, t, rfl, ht, h⟩
        · simp at h
      · simp at h
    · obtain ⟨before, place, call, after, t, rfl, ht, he⟩ := ih h
      exact ⟨op :: before, place, call, after, t, rfl, ht, he⟩

end Session

end SqlSession
