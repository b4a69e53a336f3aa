import SqlSession.Proofs.ExecutionLaw

/-!
# Executions one after the other

What calls make of a connection, other than to announce row limits, they make of it by executions.
So in a view of the connection that does not show announcements, each execution of a run starts from
where the one before it ended. What lasts of a run is often the last value that one of them gives.
-/

namespace SqlSession

/-- The last value that the elements of a list give, if any of them gives one. -/
def latest? {α β : Type} (g : α → Option β) (l : List α) : Option β := l.reverse.findSome? g

section Latest

variable {α β : Type} (g : α → Option β)

@[simp]
theorem latest?_nil : latest? g [] = none := rfl

/-- What comes later goes first. -/
theorem latest?_append (a b : List α) :
    latest? g (a ++ b) = (latest? g b).or (latest? g a) := by
  rw [latest?, List.reverse_append, List.findSome?_append]
  rfl

@[simp]
theorem latest?_singleton (x : α) : latest? g [x] = g x := by
  cases h : g x <;> simp [latest?, h]

theorem latest?_cons (x : α) (l : List α) : latest? g (x :: l) = (latest? g l).or (g x) := by
  rw [← List.singleton_append, latest?_append, latest?_singleton]

end Latest

/-- In a view of the connection executions follow on one another, from one value to another. -/
inductive Execution.Follow {α : Type} (view : Connection → α) : α → List Execution → α → Prop
  | nil (a : α) : Follow view a [] a
  | cons {e : Execution} {es : List Execution} {b : α}
      (h : Follow view (view e.after.connection) es b) :
    Follow view (view e.context.connection) (e :: es) b

namespace Execution.Follow

variable {α : Type} {view : Connection → α} {a b c : α} {es fs : List Execution} {e : Execution}

theorem append (h : Follow view a es b) (h' : Follow view b fs c) :
    Follow view a (es ++ fs) c := by
  induction h with
  | nil a => exact h'
  | cons _ ih => exact .cons (ih h')

/-- The executions before one lead to where it starts. -/
theorem before (h : Follow view a (es ++ e :: fs) b) :
    Follow view a es (view e.context.connection) := by
  induction es generalizing a with
  | nil =>
    cases h with
    | cons _ => exact .nil _
  | cons x rest ih =>
    cases h with
    | cons h => exact .cons (ih h)

end Execution.Follow

section Runs

variable {α : Type} {view : Connection → α}

/-- Executions follow on one another in a view that does not show announcements. -/
theorem Execution.follow_law (hv : ∀ k : Connection, view k.announceLimit = view k) :
    ExecutionLaw fun c es c' ↦ Follow view (view c.connection) es (view c'.connection) where
  append := Follow.append
  single e := .cons (.nil _)
  events c es := by
    rw [Context.connection_noteAll]
    exact .nil _
  settle v c := by
    have hsame : view (v.settle c).connection = view c.connection := by
      cases v with
      | maxRows n => exact hv c.connection
      | _ => rfl
    rw [hsame]
    exact .nil _
  borrow _ _ := .nil _
  failedBatch c scope := by
    rw [Context.connection_count]
    exact .nil _
  undergo c f := by cases f <;> exact .nil _

/-- The executions of a call follow on one another. -/
theorem Statement.follow_perform (hv : ∀ k : Connection, view k.announceLimit = view k)
    (s : Statement) (c : Context) (call : Call) :
    Execution.Follow view (view c.connection) (s.executions c call)
      (view (s.perform c call).context.connection) :=
  (Execution.follow_law hv).perform s c call

namespace Session

/-- The executions of an operation follow on one another, unless it is a call beside the statements
that shows in the view. -/
theorem follow_step (hv : ∀ k : Connection, view k.announceLimit = view k) (s : Session)
    {op : Operation}
    (hop : ∀ call, op = .connection call →
      view (connectionCall s.context call).2.connection = view s.context.connection) :
    Execution.Follow view (view s.context.connection) (s.executionsOf op)
      (view (s.step op).2.context.connection) := by
  refine (Execution.follow_law hv).step s fun call hcall ↦ ?_
  rw [hop call hcall]
  exact .nil _

/-- The executions of a run follow on one another, unless a call beside the statements shows in the
view. -/
theorem follow_run (hv : ∀ k : Connection, view k.announceLimit = view k) {ops : List Operation}
    (hops : ∀ op ∈ ops, ∀ call, op = .connection call →
      ∀ c, view (connectionCall c call).2.connection = view c.connection) (s : Session) :
    Execution.Follow view (view s.context.connection) (s.executions ops)
      (view (s.run ops).context.connection) := by
  refine (Execution.follow_law hv).run (fun op hop call hcall c ↦ ?_) s
  rw [hops op hop call hcall c]
  exact .nil _

end Session

end Runs

end SqlSession
