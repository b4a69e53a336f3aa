import SqlSession.Proofs.Obtained
import SqlSession.Proofs.SettingCalls

/-!
# The key and the warnings of a statement

A statement remembers the generated key of the last packet that it obtained, and the warnings of the
packet of its last execution that passed the checks. What has happened to it tells both, and only
executions and forgetting the warnings count for that.
-/

namespace SqlSession

/-- What a statement remembers of its packets. -/
structure Memory where
  key : Int64 := noKey
  warnings : Warnings := []

/-- What can happen to the memory of a statement. -/
inductive Note where
  | executed (e : Execution)
  /-- The warnings were forgotten on request. -/
  | forgot

namespace Note

/-- The key to remember: that of the packet that an execution obtains. -/
def key? : Note → Option Int64
  | executed e => e.obtained?.map fun p ↦ p.head.generatedKey
  | forgot => none

/-- The warnings to remember: those of the packet that an execution behind its checks obtains, none
if it obtains no packet. -/
def warnings? : Note → Option Warnings
  | executed e =>
    match e.refusal? with
    | some _ => none
    | none => some ((e.obtained?.map fun p ↦ p.head.warnings).getD [])
  | forgot => some []

/-- The memory after something happened. -/
def absorb (m : Memory) (n : Note) : Memory := ⟨n.key?.getD m.key, n.warnings?.getD m.warnings⟩

/-- The last key and the last warnings to remember stay. -/
theorem foldl_absorb (notes : List Note) (m : Memory) :
    notes.foldl absorb m =
      ⟨(latest? key? notes).getD m.key, (latest? warnings? notes).getD m.warnings⟩ := by
  induction notes generalizing m with
  | nil => rfl
  | cons n rest ih =>
    rw [List.foldl_cons, ih, latest?_cons, latest?_cons, absorb]
    cases latest? key? rest <;> cases latest? warnings? rest <;> rfl

end Note

/-- Numbering the hooks of a packet keeps the key and the warnings of its first response. -/
theorem Packet.head_issue (n : Nat) (p : Packet) :
    (p.issue n).1.head.generatedKey = p.head.generatedKey ∧
      (p.issue n).1.head.warnings = p.head.warnings := by
  unfold issue Response.number
  dsimp only
  split <;> exact ⟨rfl, rfl⟩

namespace Statement

/-- What the statement remembers. -/
def memory (s : Statement) : Memory := ⟨s.lastKey, s.warnings⟩

/-- What a call makes happen to the memory of its statement. -/
def notes (s : Statement) (c : Context) (call : Call) : List Note :=
  match call with
  | .forgetWarnings => if (s.usable c).isOk then [.forgot] else []
  | _ => (s.executions c call).map .executed

/-- A call that is a single execution makes that happen. -/
theorem notes_single {s : Statement} {c : Context} {call : Call} {kind : StatementKind}
    {sql : String} (h : call.single? = some (kind, sql)) :
    s.notes c call = [.executed ⟨s, c, kind, sql⟩] := by
  unfold notes
  split
  · simp [Call.single?] at h
  · rw [executions_single h]
    rfl

/-- A statement remembers of an execution what counts of it. -/
theorem memory_attempt (s : Statement) (c : Context) (kind : StatementKind) (sql : String) :
    (s.attempt c kind sql).statement.memory =
      Note.absorb s.memory (.executed ⟨s, c, kind, sql⟩) := by
  have hx := (⟨s, c, kind, sql⟩ : Execution).ending
  have ho : (⟨s, c, kind, sql⟩ : Execution).outcome = s.attempt c kind sql := rfl
  rw [Note.absorb, Note.key?, Note.warnings?]
  generalize (⟨s, c, kind, sql⟩ : Execution).obtained? = obtained at hx ⊢
  rw [ho] at hx
  generalize s.attempt c kind sql = o at hx ⊢
  cases hx with
  | refused h =>
    rw [h]
    rfl
  | failed h _ _ =>
    rw [h]
    rfl
  | rejected h _ _ _ =>
    rw [h]
    rfl
  | presented h _ _ _ =>
    rw [h]
    rfl

/-- The entries of a batch are remembered in their order. -/
theorem memory_runEntries (entries : List String) (s : Statement) (c : Context) :
    (s.runEntries c entries).statement.memory =
      ((s.entryExecutions c entries).map Note.executed).foldl Note.absorb s.memory := by
  induction entries generalizing s c with
  | nil => rfl
  | cons sql rest ih =>
    rw [(s.runEntries_cons c sql rest).1, ih, memory_attempt]
    rfl

/-- Setters change no memory. -/
theorem memory_runSetters {fs : List Setter} (h : ∀ f ∈ fs, ∃ v : Setting, f = v.setter)
    (s : Statement) (c : Context) : (s.runSetters c fs).statement.memory = s.memory :=
  Apart.runSetters (fun _ _ ↦ rfl) h s c

/-- A call that leaves its statement open adds to the memory what it makes happen. -/
theorem memory_perform {call : Call} (hc : call ≠ .close) (s : Statement) (c : Context) :
    (s.perform c call).statement.memory = (s.notes c call).foldl Note.absorb s.memory := by
  cases hs : call.single? with
  | some ks =>
    obtain ⟨f, hf⟩ := perform_single (s := s) (c := c) hs
    rw [hf, notes_single hs]
    exact s.memory_attempt c ks.1 ks.2
  | none =>
    cases call with
    | execute _ _ => simp [Call.single?] at hs
    | query _ => simp [Call.single?] at hs
    | update _ _ => simp [Call.single?] at hs
    | largeUpdate _ => simp [Call.single?] at hs
    | close => exact absurd rfl hc
    | forgetWarnings =>
      simp only [perform, Outcome.answer, forgetWarnings, notes]
      cases hu : s.usable c with
      | error e => rfl
      | ok u => rfl
    | runBatch =>
      change (s.runBatch c).statement.memory =
        ((s.batchExecutions c).map Note.executed).foldl Note.absorb s.memory
      unfold runBatch batchExecutions
      dsimp only
      cases { s with queue := [] }.checkBatch c with
      | error e => rfl
      | ok u =>
        have hrun := memory_runEntries s.queue { s with queue := [] } { c with borrowed := true }
        dsimp only
        split <;> exact hrun
    | more mode =>
      change (s.advance c mode).statement.memory = s.memory
      cases hu : s.usable c with
      | error e => rw [advance_error hu]
      | ok u =>
        rw [advance_ok hu]
        rfl
    | serve q =>
      change (s.serveCurrent c q).statement.memory = s.memory
      rcases s.serveCurrent_cases c q with ⟨ht, -⟩ | ⟨p, -, -, -, ht, -⟩
      · rw [ht]
      · rw [ht]
        rfl
    | enqueue sql =>
      change (s.enqueue c sql).statement.memory = s.memory
      unfold enqueue
      split
      · rfl
      · dsimp only
        split <;> rfl
    | clearQueue =>
      change (s.clearQueue c).statement.memory = s.memory
      unfold clearQueue
      split <;> rfl
    | configure g => exact memory_runSetters (fun f hf ↦ mem_configSetters hf) s c
    | set v => exact memory_runSetters (fun f hf ↦ ⟨v, List.mem_singleton.1 hf⟩) s c
    | result => rfl
    | generatedKeys => rfl
    | warnings => rfl
    | connection => rfl
    | setCursorName _ => rfl
    | cancel => rfl

/-- A statement that is open behind a call was open before, and the call did not close it. -/
theorem open_of_perform {s : Statement} {c : Context} {call : Call}
    (h : (s.perform c call).statement.closed = false) : call ≠ .close ∧ s.closed = false := by
  have hne : call ≠ .close := by
    rintro rfl
    change (s.close c).1.closed = false at h
    unfold close at h
    split at h
    · next hc =>
      rw [hc] at h
      simp at h
    · simp at h
  have hapart : Apart Statement.closed := fun _ _ _ _ _ _ _ ↦ rfl
  exact ⟨hne, (hapart.perform (.inr fun _ _ ↦ rfl) (.inl hne) s c).symm.trans h⟩

end Statement

namespace Session

/-- What an operation makes happen to the memory of the statement in a place. -/
def notesOf (s : Session) (place : Nat) : Operation → List Note
  | .call p call =>
    if p = place then (s.statement? p).toList.flatMap fun t ↦ t.notes s.context call else []
  | _ => []

/-- What a run makes happen to the memory of the statement in a place. -/
def notes (s : Session) (place : Nat) : List Operation → List Note
  | [] => []
  | op :: rest => s.notesOf place op ++ (s.step op).2.notes place rest

/-- The open statement in a place remembers what has happened to it, and nothing has happened before
it was made. -/
structure Recalls (s : Session) (place : Nat) (notes : List Note) : Prop where
  unmade : s.statements.length ≤ place → notes = []
  memory : ∀ t, s.statement? place = some t → t.closed = false →
    t.memory = notes.foldl Note.absorb {}

/-- A statement remembers nothing when it is made. -/
theorem memory_create {c : Context} {id : Nat} {catalog : Option String} {t : Statement}
    (h : Statement.create c id catalog = .ok t) : t.memory = {} := by
  unfold Statement.create at h
  split at h
  · simp at h
  · split at h
    · simp at h
    · rw [← Except.ok.inj h]
      rfl

/-- An operation that is no call of the statement in a place leaves it there, makes it, or drops
it. -/
theorem statement?_of_step {s : Session} {place : Nat} {op : Operation} {t : Statement}
    (hop : ∀ call, op ≠ .call place call) (ht : (s.step op).2.statement? place = some t) :
    s.statement? place = some t ∨ s.statements.length ≤ place ∧ t.memory = {} := by
  rw [statement?_eq_some] at ht ⊢
  cases op with
  | make origin setup =>
    rcases s.step_make origin setup with h | ⟨u, fs, hu, hf, h | h⟩
    · rw [h] at ht
      exact .inl ht
    · rw [h] at ht
      by_cases hlt : place < s.statements.length
      · exact .inl ((List.getElem?_append_left hlt).symm.trans ht)
      · have hge := Nat.le_of_not_lt hlt
        have hlast : t ∈ [{ (u.runSetters s.context fs).statement with setup }] := by
          have hin := List.mem_of_getElem? ((List.getElem?_append_right hge).symm.trans ht)
          simpa using hin
        rw [List.mem_singleton.1 hlast]
        exact .inr ⟨hge, (Statement.memory_runSetters hf u s.context).trans (memory_create hu)⟩
    · rw [h] at ht
      exact .inl ht
  | call p call =>
    have hne : p ≠ place := fun h ↦ hop call (by rw [h])
    have hstep := s.step_stepped (.call p call)
    generalize (s.step (.call p call)).2 = s' at hstep ht
    cases hstep with
    | idle => exact .inl ht
    | called _ _ => exact .inl ((List.getElem?_set_ne hne).symm.trans ht)
    | underwent _ _ => exact .inl ht
  | drop p =>
    have hstep := s.step_stepped (.drop p)
    generalize (s.step (.drop p)).2 = s' at hstep ht
    cases hstep with
    | idle => exact .inl ht
    | dropped hp =>
      by_cases hpl : p = place
      · have hlt := (List.getElem?_eq_some_iff.1 hp).1
        rw [← hpl, List.getElem?_set_self hlt] at ht
        simp at ht
      · exact .inl ((List.getElem?_set_ne hpl).symm.trans ht)
    | underwent _ _ => exact .inl ht
  | connection call =>
    have hstep := s.step_stepped (.connection call)
    generalize (s.step (.connection call)).2 = s' at hstep ht
    cases hstep <;> exact .inl ht
  | poison => exact .inl ht
  | dropConnection => exact .inl ht

/-- No operation takes a place away. -/
theorem length_step (s : Session) (op : Operation) :
    s.statements.length ≤ (s.step op).2.statements.length := by
  have hstep := s.step_stepped op
  generalize (s.step op).2 = s' at hstep ⊢
  cases hstep <;> simp

/-- The statement in a place recalls what an operation makes happen. -/
theorem recalls_step {s : Session} {place : Nat} {notes : List Note} (h : s.Recalls place notes)
    (op : Operation) : (s.step op).2.Recalls place (notes ++ s.notesOf place op) := by
  by_cases hop : ∃ call, op = .call place call
  · obtain ⟨call, rfl⟩ := hop
    cases ht : s.statement? place with
    | none =>
      have hsame : (s.step (.call place call)).2 = s := by simp [step, ht]
      rw [hsame, notesOf, if_pos rfl, ht, Option.toList_none, List.flatMap_nil, List.append_nil]
      exact h
    | some t =>
      obtain ⟨-, -, hs⟩ := step_call ht call
      have hnotes : s.notesOf place (.call place call) = t.notes s.context call := by
        simp [notesOf, ht]
      refine ⟨fun hlen ↦ ?_, fun u hu huc ↦ ?_⟩
      · have hlt := (List.getElem?_eq_some_iff.1 (statement?_eq_some.1 ht)).1
        have := s.length_step (.call place call)
        omega
      · obtain rfl := Option.some.inj (hs.symm.trans hu)
        obtain ⟨hne, htc⟩ := Statement.open_of_perform huc
        rw [hnotes, List.foldl_append, ← h.memory t ht htc]
        exact Statement.memory_perform hne t s.context
  · have hne : ∀ call, op ≠ .call place call := fun call heq ↦ hop ⟨call, heq⟩
    have hnotes : s.notesOf place op = [] := by
      cases op with
      | call p call =>
        have hp : p ≠ place := fun heq ↦ hne call (by rw [heq])
        simp [notesOf, hp]
      | _ => rfl
    rw [hnotes, List.append_nil]
    refine ⟨fun hlen ↦ h.unmade (Nat.le_trans (s.length_step op) hlen), fun t ht hopen ↦ ?_⟩
    rcases statement?_of_step hne ht with hbefore | ⟨hlen, hnew⟩
    · exact h.memory t hbefore hopen
    · rw [h.unmade hlen, hnew]
      rfl

/-- The statement in a place recalls what a run makes happen. -/
theorem recalls_run {s : Session} {place : Nat} {notes : List Note} (h : s.Recalls place notes)
    (ops : List Operation) : (s.run ops).Recalls place (notes ++ s.notes place ops) := by
  induction ops generalizing s notes with
  | nil =>
    rw [Session.notes, List.append_nil]
    exact h
  | cons op rest ih =>
    rw [Session.notes, ← List.append_assoc]
    exact ih (recalls_step h op)

/-- An open statement shows the generated key of the packet that its last execution with a packet
obtained, and the warnings of the packet of its last execution behind the checks, unless they were
forgotten since. The packet has the key and the warnings that the connection answered, and a
response to which chains are attached has their warnings behind its own, in their order, and is the
same in all else. -/
theorem key_and_warnings_follow {connection : Connection} {ops : List Operation} {place : Nat}
    {t : Statement} (ht : ((start connection).run ops).statement? place = some t)
    (ho : t.closed = false) :
    let c := ((start connection).run ops).context
    let notes := (start connection).notes place ops
    t.generatedKey c = (t.usable c).map (fun _ ↦ (latest? Note.key? notes).getD noKey) ∧
      t.currentWarnings c =
        (t.usable c).map (fun _ ↦ (latest? Note.warnings? notes).getD []) ∧
      (∀ e p, Note.executed e ∈ notes → e.obtained? = some p →
        ∃ text q, e.statement.expanded e.sql = .ok text ∧
          e.context.connection.answer text = .ok q ∧
          p.head.generatedKey = q.head.generatedKey ∧ p.head.warnings = q.head.warnings) ∧
      ∀ (r : Response) (chains : List WarningChain), r.warned chains =
        { r with warnings := r.warnings ++ chains.flatMap WarningChain.toList } := by
  intro c notes
  have hstart : (start connection).Recalls place [] :=
    ⟨fun _ ↦ rfl, fun u hu ↦ by simp [start, statement?] at hu⟩
  have hm := (recalls_run hstart ops).memory t ht ho
  rw [List.nil_append, Note.foldl_absorb] at hm
  have hkey : t.lastKey = (latest? Note.key? notes).getD noKey := congrArg Memory.key hm
  have hwarnings : t.warnings = (latest? Note.warnings? notes).getD [] :=
    congrArg Memory.warnings hm
  refine ⟨?_, ?_, fun e p _ hp ↦ ?_, Response.warned_eq⟩
  · rw [Statement.generatedKey, Statement.read, hkey]
  · rw [Statement.currentWarnings, Statement.read, hwarnings]
  · obtain ⟨text, q, n, hx, hq, rfl⟩ := Execution.answers_of_obtained hp
    obtain ⟨hk, hw⟩ := Packet.head_issue n q
    exact ⟨text, q, hx, hq, hk, hw⟩

/-- A packet that is no result of a query leaves its key and its warnings all the same. Neither a
refused call nor a setting nor an advance changes them. -/
theorem key_and_warnings_follow_rejected :
    let w (message : String) : Warning := { message }
    let first := (Response.ofUpdate 1 7).warned [.link (w "a") (.last (w "b"))]
    let p : Packet :=
      ⟨first.warned [.last (w "c")], [(Response.ofUpdate 2 8).warned [.last (w "d")]]⟩
    let k : Connection := { catalog := "main", rules := [⟨"UPDATE", fun _ ↦ .ok p⟩] }
    let ops : List Operation :=
      [.make .plain {}, .call 0 (.query "UPDATE t"), .call 0 (.query " "),
        .call 0 (.set (.fetchSize 1)), .call 0 (.more .closeCurrent)]
    let s := (start k).run ops
    ∃ t, s.statement? 0 = some t ∧ t.closed = false ∧ t.generatedKey s.context = .ok 7 ∧
      t.currentWarnings s.context = .ok [w "a", w "b", w "c"] := by
  intro w first p k ops s
  have ht : s.statement? 0 = some ((s.statement? 0).get rfl) := (Option.some_get rfl).symm
  have ho : ((s.statement? 0).get rfl).closed = false := by decide +kernel
  have hu : ((s.statement? 0).get rfl).usable s.context = .ok () := by decide +kernel
  obtain ⟨hkey, hwarnings, -⟩ := key_and_warnings_follow ht ho
  have hseven : (latest? Note.key? ((start k).notes 0 ops)).getD noKey = 7 := by decide +kernel
  have hthree : (latest? Note.warnings? ((start k).notes 0 ops)).getD [] =
      [w "a", w "b", w "c"] := by decide +kernel
  rw [hu, hseven] at hkey
  rw [hu, hthree] at hwarnings
  exact ⟨_, ht, ho, hkey, hwarnings⟩

end Session

end SqlSession
