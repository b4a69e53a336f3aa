import SqlSession.Proofs.StepLaw

/-!
# What calls change of a statement

A call changes settings by the changes that it asks for, and one that asks for none leaves all
settings as they are. What belongs neither to the results nor to the queue, only such a change or
closing the statement can touch.
-/

namespace SqlSession

/-- The changes of settings that a call asks for. -/
def Call.settings : Call → List Setting
  | .set v => [v]
  | .configure g => g.settings
  | _ => []

namespace Statement

/-- A call changes settings by the setters of the changes that it asks for. -/
theorem perform_settings {call : Call} (h : call.settings ≠ []) (s : Statement) (c : Context) :
    s.perform c call =
      (s.runSetters c (call.settings.map Setting.setter)).answer fun _ ↦ .done := by
  cases call with
  | set v => rfl
  | configure g =>
    rw [Call.settings, ← configSetters_eq]
    rfl
  | _ => simp [Call.settings] at h

/-- A part of a statement that belongs neither to its results nor to its queue. -/
def Apart {α : Type} (f : Statement → α) : Prop :=
  ∀ s current pending retained queue lastKey warnings,
    f { s with current, pending, retained, queue, lastKey, warnings } = f s

namespace Apart

variable {α : Type} {f : Statement → α}

/-- An execution changes the results of a statement only. -/
theorem attempt (h : Apart f) (s : Statement) (c : Context) (kind : StatementKind)
    (sql : String) : f (s.attempt c kind sql).statement = f s := by
  have hx := s.attempt_course c kind sql
  generalize s.attempt c kind sql = o at hx ⊢
  cases hx <;> exact h s _ _ _ _ _ _

/-- A batch changes the results and the queue of a statement only. -/
theorem runBatch (h : Apart f) (s : Statement) (c : Context) :
    f (s.runBatch c).statement = f s := by
  have hq : f { s with queue := [] } = f s := h s _ _ _ _ _ _
  unfold Statement.runBatch
  dsimp only
  split
  · exact hq
  · have hrun := runEntries_keeps f h.attempt s.queue { s with queue := [] }
      { c with borrowed := true }
    split <;> exact hrun.trans hq

/-- What is apart is the same in all executions of a call. -/
theorem executions (h : Apart f) {s : Statement} {c : Context} {call : Call} {e : Execution}
    (he : e ∈ s.executions c call) : f e.statement = f s := by
  have entries {t : Statement} {d : Context} {sqls : List String}
      (he : e ∈ t.entryExecutions d sqls) : f e.statement = f t := by
    induction sqls generalizing t d with
    | nil => simp [entryExecutions] at he
    | cons sql rest ih =>
      rcases List.mem_cons.1 he with rfl | he
      · rfl
      · exact (ih he).trans (h.attempt t d .update sql)
  unfold Statement.executions at he
  split at he
  · rw [List.mem_singleton.1 he]
  · split at he
    · unfold batchExecutions at he
      split at he
      · simp at he
      · exact (entries he).trans (h s _ _ _ _ _ _)
    · simp at he

/-- Setters keep what a change of the settings keeps. -/
theorem runSetters (hs : ∀ s settings, f { s with settings } = f s) {fs : List Setter}
    (h : ∀ g ∈ fs, ∃ v : Setting, g = v.setter) (s : Statement) (c : Context) :
    f (s.runSetters c fs).statement = f s := by
  refine runSetters_keeps (R := fun s _ s' _ ↦ f s' = f s) (fun _ _ ↦ rfl)
    (fun h₁ h₂ ↦ h₂.trans h₁) (fun v s s' c c' hv ↦ ?_) h s c
  rw [(Setting.setter_ok_iff.1 hv).2.2.1]
  exact hs s _

/-- A call leaves alone what is apart, unless it changes settings or closes the statement and that
touches it. -/
theorem perform (h : Apart f) {call : Call}
    (hs : call.settings = [] ∨ ∀ s settings, f { s with settings } = f s)
    (hc : call ≠ .close ∨ ∀ s c, f (s.close c).1 = f s) (s : Statement) (c : Context) :
    f (s.perform c call).statement = f s := by
  by_cases hset : call.settings = []
  · cases hone : call.single? with
    | some ks =>
      obtain ⟨g, hg⟩ := perform_single (s := s) (c := c) hone
      rw [hg, h.attempt]
    | none =>
      cases call with
      | execute _ _ => simp [Call.single?] at hone
      | query _ => simp [Call.single?] at hone
      | update _ _ => simp [Call.single?] at hone
      | largeUpdate _ => simp [Call.single?] at hone
      | set _ => simp [Call.settings] at hset
      | configure g => simp [Call.settings, Config.settings] at hset
      | more mode =>
        change f (s.advance c mode).statement = f s
        cases hu : s.usable c with
        | error e => rw [advance_error hu]
        | ok u =>
          rw [advance_ok hu]
          exact h s _ _ _ _ _ _
      | serve q =>
        change f (s.serveCurrent c q).statement = f s
        rcases s.serveCurrent_cases c q with ⟨ht, -⟩ | ⟨p, -, -, -, ht, -⟩
        · rw [ht]
        · rw [ht]
          exact h s _ _ _ _ _ _
      | runBatch => exact h.runBatch s c
      | close => exact hc.elim (fun hne ↦ absurd rfl hne) fun hk ↦ hk s c
      | forgetWarnings =>
        simp only [Statement.perform, Outcome.answer, forgetWarnings]
        split
        · rfl
        · exact h s _ _ _ _ _ _
      | enqueue sql =>
        simp only [Statement.perform, Outcome.answer, enqueue]
        split
        · rfl
        · split
          · rfl
          · exact h s _ _ _ _ _ _
      | clearQueue =>
        simp only [Statement.perform, Outcome.answer, clearQueue]
        split
        · rfl
        · exact h s _ _ _ _ _ _
      | result => rfl
      | generatedKeys => rfl
      | warnings => rfl
      | connection => rfl
      | setCursorName name => rfl
      | cancel => rfl
  · rw [perform_settings hset]
    refine runSetters (hs.resolve_left hset) (fun g hg ↦ ?_) s c
    obtain ⟨v, -, hv⟩ := List.mem_map.1 hg
    exact ⟨v, hv.symm⟩

end Apart

/-- A call that asks for no change of a setting makes none. -/
theorem settings_perform {call : Call} (h : call.settings = []) (s : Statement) (c : Context) :
    (s.perform c call).statement.settings = s.settings := by
  have hapart : Apart Statement.settings := fun _ _ _ _ _ _ _ ↦ rfl
  refine hapart.perform (.inl h) (.inr fun s c ↦ ?_) s c
  unfold close
  split <;> rfl

end Statement

end SqlSession
