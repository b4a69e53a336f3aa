import SqlSession.Proofs.SessionSteps
import SqlSession.Proofs.SettingCalls

/-!
# How statements are set up

A statement keeps the setup that it was made with: neither a call nor an execution within one
touches it. So what holds of every setup that a session makes statements with holds of all its
statements and of all their executions.
-/

namespace SqlSession

/-- No step of a statement touches its setup. -/
theorem Statement.setup_apart : Apart Statement.setup := fun _ _ _ _ _ _ _ ↦ rfl

/-- A call keeps the setup of its statement. -/
theorem Statement.setup_perform (s : Statement) (c : Context) (call : Call) :
    (s.perform c call).statement.setup = s.setup := by
  refine setup_apart.perform (.inr fun _ _ ↦ rfl) (.inr fun s c ↦ ?_) s c
  unfold Statement.close
  split <;> rfl

/-- A statement that is made has such a setup. -/
def Operation.MakesWith (p : Setup → Prop) : Operation → Prop
  | .make _ setup => p setup
  | _ => True

namespace Session

/-- All statements of the session have such a setup. -/
def AllSetUp (p : Setup → Prop) (s : Session) : Prop := ∀ t, some t ∈ s.statements → p t.setup

variable {p : Setup → Prop} {s : Session}

theorem allSetUp_start (connection : Connection) : (start connection).AllSetUp p :=
  fun _ h ↦ absurd h List.not_mem_nil

/-- Only a statement that is made brings in a new setup. -/
theorem allSetUp_step {op : Operation} (hop : op.MakesWith p) (hs : s.AllSetUp p) :
    (s.step op).2.AllSetUp p := by
  have hstep := s.step_stepped op
  generalize (s.step op).2 = s' at hstep ⊢
  cases hstep with
  | idle => exact hs
  | made origin setup _ _ =>
    intro u hu
    rcases List.mem_append.1 hu with hu | hu
    · exact hs u hu
    · rw [Option.some.inj (List.mem_singleton.1 hu)]
      exact hop
  | unmade _ _ _ _ => exact hs
  | called ht call =>
    intro u hu
    rcases List.mem_or_eq_of_mem_set hu with hu | hu
    · exact hs u hu
    · rw [Option.some.inj hu, Statement.setup_perform]
      exact hs _ (List.mem_of_getElem? ht)
  | dropped _ =>
    intro u hu
    rcases List.mem_or_eq_of_mem_set hu with hu | hu
    · exact hs u hu
    · simp at hu
  | beside _ => exact hs
  | underwent _ _ => exact hs

/-- The executions of a run are those of statements with such a setup. -/
theorem setup_executions {ops : List Operation} (hops : ∀ op ∈ ops, op.MakesWith p)
    (hs : s.AllSetUp p) : ∀ e ∈ s.executions ops, p e.statement.setup := by
  intro e he
  obtain ⟨before, place, call, after, t, rfl, ht, he⟩ := mem_executions he
  have hbefore : (s.run before).AllSetUp p :=
    run_induction (fun u op ho ↦ allSetUp_step (hops op (by simp [ho]))) hs
  rw [Statement.setup_apart.executions he]
  exact hbefore t (List.mem_of_getElem? (statement?_eq_some.1 ht))

end Session

end SqlSession
