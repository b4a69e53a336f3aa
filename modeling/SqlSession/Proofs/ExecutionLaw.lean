import SqlSession.Proofs.SessionSteps

/-!
# Laws of the executions between two moments

`ExecutionLaw` says of a relation between the surroundings before and after and the executions in
between that single executions and the steps which execute nothing keep it. `ExecutionLaw.perform`
then gives it for every call, and `ExecutionLaw.run` for a whole run.
-/

namespace SqlSession

/-- A call that executes nothing has no executions. -/
theorem Statement.executions_quiet {call : Call} (h : call.quiet = true) (s : Statement)
    (c : Context) : s.executions c call = [] := by
  cases call with
  | execute _ _ => simp [Call.quiet] at h
  | query _ => simp [Call.quiet] at h
  | update _ _ => simp [Call.quiet] at h
  | largeUpdate _ => simp [Call.quiet] at h
  | runBatch => simp [Call.quiet] at h
  | _ => rfl

/-- A relation between the surroundings before and after and the executions in between, which single
executions and all other steps keep. -/
structure ExecutionLaw (R : Context → List Execution → Context → Prop) : Prop where
  append {c d e : Context} {es fs : List Execution} : R c es d → R d fs e → R c (es ++ fs) e
  single (e : Execution) : R e.context [e] e.after
  events (c : Context) (es : List Event) : R c [] (c.noteAll es)
  /-- A setting changes. -/
  settle (v : Setting) (c : Context) : R c [] (v.settle c)
  /-- A batch starts or ends to hold the connection. -/
  borrow (c : Context) (borrowed : Bool) : R c [] { c with borrowed }
  failedBatch (c : Context) (scope : Metrics.Scope) : R c [] (c.count scope Metrics.addFailedBatch)
  /-- The application gives up the connection, or fails while it holds the mutex. -/
  undergo (c : Context) (f : Hook.Effect) : R c [] (c.undergo f)

namespace ExecutionLaw

variable {R : Context → List Execution → Context → Prop}

theorem refl (law : ExecutionLaw R) (c : Context) : R c [] c := law.events c []

theorem log (law : ExecutionLaw R) (c : Context) (rs : List Log.Record) : R c [] (c.log rs) :=
  law.events c _

/-- Steps that execute nothing keep the law with no executions. -/
theorem quiet (law : ExecutionLaw R) : QuietLaw fun _ c _ c' ↦ R c [] c' :=
  .of_context law.refl (fun h h' ↦ law.append h h') law.events law.settle

/-- Behind executions the law is kept by what executes nothing. -/
theorem behind (law : ExecutionLaw R) {c d e : Context} {es : List Execution} (h : R c es d)
    (h' : R d [] e) : R c es e := by
  have hall := law.append h h'
  rw [List.append_nil] at hall
  exact hall

/-- What goes on after an entry of a batch is in keeping with the law. -/
theorem afterEntry (law : ExecutionLaw R) (s : Statement) (c : Context) (sql : String) :
    R c [⟨s, c, .update, sql⟩] (s.afterEntry (s.attempt c .update sql)) := by
  have hone := law.single ⟨s, c, .update, sql⟩
  unfold Statement.afterEntry
  split
  · exact hone
  · exact law.behind hone (law.log _ _)

/-- The entries of a batch keep the law. -/
theorem runEntries (law : ExecutionLaw R) (entries : List String) (s : Statement) (c : Context) :
    R c (s.entryExecutions c entries) (s.runEntries c entries).context := by
  induction entries generalizing s c with
  | nil => exact law.refl c
  | cons sql rest ih =>
    rw [(s.runEntries_cons c sql rest).2]
    exact law.append (law.afterEntry s c sql) (ih _ _)

/-- A batch keeps the law. -/
theorem runBatch (law : ExecutionLaw R) (s : Statement) (c : Context) :
    R c (s.batchExecutions c) (s.runBatch c).context := by
  unfold Statement.runBatch Statement.batchExecutions
  dsimp only
  cases { s with queue := [] }.checkBatch c with
  | error e => exact law.refl c
  | ok u =>
    have hrun := law.append (law.borrow c true)
      (law.runEntries s.queue { s with queue := [] } { c with borrowed := true })
    have hback := law.behind hrun (law.borrow _ false)
    dsimp only
    split
    · exact law.behind hback (law.log _ _)
    · exact law.behind (law.behind hback (law.log _ _)) (law.failedBatch _ _)

/-- Every call keeps the law. -/
theorem perform (law : ExecutionLaw R) (s : Statement) (c : Context) (call : Call) :
    R c (s.executions c call) (s.perform c call).context := by
  cases hs : call.single? with
  | some ks =>
    obtain ⟨f, hf⟩ := Statement.perform_single (s := s) (c := c) hs
    rw [hf, Statement.executions_single hs]
    exact law.single ⟨s, c, ks.1, ks.2⟩
  | none =>
    cases hq : call.quiet with
    | true =>
      rw [s.executions_quiet hq c]
      exact law.quiet.perform hq s c
    | false =>
      rw [Call.eq_runBatch hs hq]
      exact law.runBatch s c

/-- Every operation keeps the law, if its call beside the statements does, should it be one. -/
theorem step (law : ExecutionLaw R) (s : Session) {op : Operation}
    (hop : ∀ call, op = .connection call →
      R s.context [] (Session.connectionCall s.context call).2) :
    R s.context (s.executionsOf op) (s.step op).2.context := by
  have hstep := s.step_stepped op
  cases op with
  | call place call =>
    unfold Session.step Session.executionsOf
    dsimp only
    cases s.statement? place with
    | none => exact law.refl s.context
    | some t => exact law.perform t s.context call
  | make origin setup =>
    generalize (s.step (.make origin setup)).2 = s' at hstep ⊢
    cases hstep with
    | idle => exact law.refl s.context
    | made _ _ _ hf => exact law.quiet.runSetters hf _ s.context
    | unmade _ _ _ hf =>
      exact law.append (law.quiet.runSetters hf _ s.context) (law.quiet.close _ _)
    | underwent _ f => exact law.undergo s.context f
  | drop place =>
    generalize (s.step (.drop place)).2 = s' at hstep ⊢
    cases hstep with
    | idle => exact law.refl s.context
    | dropped _ => exact law.quiet.close _ s.context
    | underwent _ f => exact law.undergo s.context f
  | connection call =>
    generalize (s.step (.connection call)).2 = s' at hstep ⊢
    cases hstep with
    | idle => exact law.refl s.context
    | beside _ => exact hop call rfl
    | underwent _ f => exact law.undergo s.context f
  | poison => exact law.undergo s.context .poison
  | dropConnection => exact law.undergo s.context .dropConnection

/-- A run keeps the law, if the calls beside the statements do. -/
theorem run (law : ExecutionLaw R) {ops : List Operation}
    (hops : ∀ op ∈ ops, ∀ call, op = .connection call →
      ∀ c, R c [] (Session.connectionCall c call).2) (s : Session) :
    R s.context (s.executions ops) (s.run ops).context := by
  induction ops generalizing s with
  | nil => exact law.refl s.context
  | cons op rest ih =>
    have hfirst := law.step s fun call hcall ↦ hops op (by simp) call hcall s.context
    exact law.append hfirst (ih (fun o ho ↦ hops o (by simp [ho])) (s.step op).2)

end ExecutionLaw

end SqlSession
