import SqlSession.Proofs.Executions
import SqlSession.Proofs.Slots

/-!
# Laws that single steps keep

`QuietLaw` says of a relation between the states before and after that the steps which execute
nothing keep it, and `StepLaw` that executions keep it as well. `StepLaw.perform` then gives it
for every call, and `StepLaw.entry` for the way from a call to each execution within it.
-/

namespace SqlSession

/-- The setters of a configuration are changes of single settings. -/
theorem Statement.mem_configSetters {g : Config} {f : Setter}
    (h : f ∈ Statement.configSetters g) : ∃ v : Setting, f = v.setter := by
  rw [configSetters_eq] at h
  obtain ⟨v, -, hv⟩ := List.mem_map.1 h
  exact ⟨v, hv.symm⟩

/-- What each change of a setting keeps, setters keep up to the first that is refused. -/
theorem Statement.runSetters_keeps {R : Statement → Context → Statement → Context → Prop}
    (refl : ∀ s c, R s c s c)
    (trans : ∀ {s s' s'' c c' c''}, R s c s' c' → R s' c' s'' c'' → R s c s'' c'')
    (set : ∀ (v : Setting) {s s' c c'}, v.setter s c = .ok (s', c') → R s c s' c')
    {fs : List Setter} (h : ∀ f ∈ fs, ∃ v : Setting, f = v.setter) (s : Statement) (c : Context) :
    R s c (s.runSetters c fs).statement (s.runSetters c fs).context := by
  induction fs generalizing s c with
  | nil => exact refl s c
  | cons f fs ih =>
    obtain ⟨v, rfl⟩ := h f (by simp)
    cases hf : v.setter s c with
    | error e =>
      simp only [runSetters, hf]
      exact refl s c
    | ok sc =>
      simp only [runSetters, hf]
      exact trans (set v hf) (ih (fun g hg ↦ h g (by simp [hg])) sc.1 sc.2)

/-- A relation between a statement with its surroundings before and after, which every step that
executes nothing keeps. -/
structure QuietLaw (R : Statement → Context → Statement → Context → Prop) : Prop where
  refl (s : Statement) (c : Context) : R s c s c
  trans {s s' s'' : Statement} {c c' c'' : Context} :
    R s c s' c' → R s' c' s'' c'' → R s c s'' c''
  /-- The queue and the warnings change. -/
  aside (s : Statement) (c : Context) (queue : List String) (warnings : Warnings) :
    R s c { s with queue, warnings } c
  advance (s : Statement) (c : Context) (mode : MoreResults) :
    R s c (s.advance c mode).statement (s.advance c mode).context
  serve (s : Statement) (c : Context) (q : Packet.Request) :
    R s c (s.serveCurrent c q).statement (s.serveCurrent c q).context
  set (v : Setting) {s s' : Statement} {c c' : Context} :
    v.setter s c = .ok (s', c') → R s c s' c'
  close (s : Statement) (c : Context) : R s c (s.close c).1 (s.close c).2

/-- A relation that the steps of executions keep as well. -/
structure StepLaw (R : Statement → Context → Statement → Context → Prop) : Prop
    extends QuietLaw R where
  /-- A batch starts or ends to hold the connection. -/
  borrow (s : Statement) (c : Context) (borrowed : Bool) : R s c s { c with borrowed }
  log (s : Statement) (c : Context) (rs : List Log.Record) : R s c s (c.log rs)
  failedBatch (s : Statement) (c : Context) (scope : Metrics.Scope) :
    R s c s (c.count scope Metrics.addFailedBatch)
  attempt (s : Statement) (c : Context) (kind : StatementKind) (sql : String) :
    R s c (s.attempt c kind sql).statement (s.attempt c kind sql).context

namespace QuietLaw

variable {R : Statement → Context → Statement → Context → Prop}

/-- Steps that execute nothing touch the surroundings by events and by changes of settings only. -/
theorem of_context {R : Context → Context → Prop} (refl : ∀ c, R c c)
    (trans : ∀ {c d e}, R c d → R d e → R c e) (noteAll : ∀ c es, R c (c.noteAll es))
    (settle : ∀ (v : Setting) c, R c (v.settle c)) : QuietLaw fun _ c _ c' ↦ R c c' where
  refl _ c := refl c
  trans := trans
  aside _ c _ _ := refl c
  advance s c mode := by
    cases hu : s.usable c with
    | error e =>
      rw [Statement.advance_error hu]
      exact refl c
    | ok u =>
      rw [Statement.advance_ok hu, Context.releaseAll_eq]
      exact noteAll c _
  serve s c q := by
    rcases s.serveCurrent_cases c q with ⟨-, h⟩ | ⟨p, -, -, -, -, h⟩
    · rw [h]
      exact refl c
    · rw [h]
      exact noteAll c _
  set v {s s' c c'} h := by
    rw [(Setting.setter_ok_iff.1 h).2.2.2]
    exact settle v c
  close s c := by
    unfold Statement.close
    split
    · exact refl c
    · rw [Context.releaseSlot_eq, Context.releaseSlot_eq, Context.releaseAll_eq]
      exact trans (trans (trans (noteAll c _) (noteAll _ _)) (noteAll _ _)) (noteAll _ _)

/-- Setters of single settings keep the law up to the first that is refused. -/
theorem runSetters (law : QuietLaw R) {fs : List Setter}
    (h : ∀ f ∈ fs, ∃ v : Setting, f = v.setter) (s : Statement) (c : Context) :
    R s c (s.runSetters c fs).statement (s.runSetters c fs).context :=
  Statement.runSetters_keeps law.refl law.trans law.set h s c

/-- A call that executes nothing keeps the law. -/
theorem perform (law : QuietLaw R) {call : Call} (hq : call.quiet = true) (s : Statement)
    (c : Context) : R s c (s.perform c call).statement (s.perform c call).context := by
  cases call with
  | execute sql keys => simp [Call.quiet] at hq
  | query sql => simp [Call.quiet] at hq
  | update sql keys => simp [Call.quiet] at hq
  | largeUpdate sql => simp [Call.quiet] at hq
  | runBatch => simp [Call.quiet] at hq
  | more mode => exact law.advance s c mode
  | serve q => exact law.serve s c q
  | forgetWarnings =>
    simp only [Statement.perform, Outcome.answer, Statement.forgetWarnings]
    split
    · exact law.refl s c
    · exact law.aside s c s.queue []
  | enqueue sql =>
    simp only [Statement.perform, Outcome.answer, Statement.enqueue]
    split
    · exact law.refl s c
    · split
      · exact law.refl s c
      · exact law.aside s c (s.queue ++ [sql]) s.warnings
  | clearQueue =>
    simp only [Statement.perform, Outcome.answer, Statement.clearQueue]
    split
    · exact law.refl s c
    · exact law.aside s c [] s.warnings
  | close => exact law.close s c
  | configure g => exact law.runSetters (fun f hf ↦ Statement.mem_configSetters hf) s c
  | set v => exact law.runSetters (fun f hf ↦ ⟨v, List.mem_singleton.1 hf⟩) s c
  | result => exact law.refl s c
  | generatedKeys => exact law.refl s c
  | warnings => exact law.refl s c
  | connection => exact law.refl s c
  | setCursorName name => exact law.refl s c
  | cancel => exact law.refl s c

end QuietLaw

namespace StepLaw

variable {R : Statement → Context → Statement → Context → Prop}

/-- What goes on after an entry of a batch is in keeping with the law. -/
theorem afterEntry (law : StepLaw R) (s : Statement) (c : Context) (sql : String) :
    R s c (s.attempt c .update sql).statement (s.afterEntry (s.attempt c .update sql)) := by
  have ha := law.attempt s c .update sql
  unfold Statement.afterEntry
  split
  · exact ha
  · exact law.trans ha (law.log _ _ _)

/-- The entries of a batch keep the law. -/
theorem runEntries (law : StepLaw R) (entries : List String) (s : Statement) (c : Context) :
    R s c (s.runEntries c entries).statement (s.runEntries c entries).context := by
  induction entries generalizing s c with
  | nil => exact law.refl s c
  | cons sql rest ih =>
    obtain ⟨hs, hc⟩ := s.runEntries_cons c sql rest
    rw [hs, hc]
    exact law.trans (law.afterEntry s c sql) (ih _ _)

/-- A batch keeps the law. -/
theorem runBatch (law : StepLaw R) (s : Statement) (c : Context) :
    R s c (s.runBatch c).statement (s.runBatch c).context := by
  have hq : R s c { s with queue := [] } c := law.aside s c [] s.warnings
  unfold Statement.runBatch
  dsimp only
  split
  · exact hq
  · have hb := law.trans hq (law.borrow _ c true)
    have hr := law.trans hb (law.runEntries s.queue _ _)
    have hf := law.trans hr (law.borrow _ _ false)
    split
    · exact law.trans hf (law.log _ _ _)
    · exact law.trans (law.trans hf (law.log _ _ _)) (law.failedBatch _ _ _)

/-- Every call keeps the law. -/
theorem perform (law : StepLaw R) (s : Statement) (c : Context) (call : Call) :
    R s c (s.perform c call).statement (s.perform c call).context := by
  cases hs : call.single? with
  | some ks =>
    obtain ⟨f, hf⟩ := Statement.perform_single (s := s) (c := c) hs
    rw [hf]
    exact law.attempt s c ks.1 ks.2
  | none =>
    cases hq : call.quiet with
    | true => exact law.toQuietLaw.perform hq s c
    | false =>
      rw [Call.eq_runBatch hs hq]
      exact law.runBatch s c

/-- The law leads from the start of a batch to each of its entries. -/
theorem entryExecutions (law : StepLaw R) {entries : List String} {s : Statement} {c : Context}
    {e : Execution} (h : e ∈ s.entryExecutions c entries) : R s c e.statement e.context := by
  induction entries generalizing s c with
  | nil => simp [Statement.entryExecutions] at h
  | cons sql rest ih =>
    rcases List.mem_cons.1 h with rfl | h
    · exact law.refl s c
    · exact law.trans (law.afterEntry s c sql) (ih h)

/-- The law leads from a call to each execution in it. -/
theorem entry (law : StepLaw R) {s : Statement} {c : Context} {call : Call} {e : Execution}
    (h : e ∈ s.executions c call) : R s c e.statement e.context := by
  unfold Statement.executions at h
  split at h
  · rw [List.mem_singleton.1 h]
    exact law.refl s c
  · split at h
    · unfold Statement.batchExecutions at h
      split at h
      · simp at h
      · have hq : R s c { s with queue := [] } c := law.aside s c [] s.warnings
        exact law.trans (law.trans hq (law.borrow _ c true)) (law.entryExecutions h)
    · simp at h

end StepLaw

end SqlSession
