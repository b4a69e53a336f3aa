import SqlSession.Proofs.Sends
import SqlSession.Proofs.SessionSteps
import SqlSession.Proofs.Slots

/-!
# The chain of results

The slots of a statement hold what is left of the packet of its last execution: the response at
hand in the current slot, and those behind it in the pending slot. `ChainCursor` is the plain
account of this, a position in the list of responses. Advances move it by one whatever the mode,
and neither reads, setters nor a close by hand move it.
-/

namespace SqlSession

/-- The response at hand shows the one that was given: the same counts, and the same rows and hook
unless it was asked to close. The binding, the cursor and the warnings may differ. -/
structure Response.Shows (given : Response) (shut : Bool) (r : Response) : Prop where
  updateCount : r.updateCount = given.updateCount
  generatedKey : r.generatedKey = given.generatedKey
  state : (r.rows = given.rows ∧ r.closed = given.closed ∧ r.release = given.release) ∨
    shut = true ∧ r.rows = none ∧ r.closed = true ∧ r.release = none

/-- A position in a chain of results: the number of advances, and whether the result there was
asked to close. -/
structure ChainCursor where
  taken : Nat := 0
  shut : Bool := false
  deriving DecidableEq

namespace ChainCursor

/-- The cursor after a call, which may have been refused. -/
def follow (k : ChainCursor) (call : Call) (succeeded : Bool) : ChainCursor :=
  match call with
  | .more _ => if succeeded then ⟨k.taken + 1, false⟩ else k
  | .serve .close => { k with shut := true }
  | _ => k

/-- The cursor for the statement in a place after an operation with its answer. -/
def along (k : ChainCursor) (place : Nat) (op : Operation) (answer : Except SqlError Answer) :
    ChainCursor :=
  match op with
  | .call p call => if p = place then k.follow call answer.isOk else k
  | _ => k

@[simp]
theorem along_call (k : ChainCursor) (place : Nat) (call : Call) (answer : Except SqlError Answer) :
    k.along place (.call place call) answer = k.follow call answer.isOk := if_pos rfl

/-- What is no call of the statement leaves its cursor in place. -/
theorem along_elsewhere {k : ChainCursor} {place : Nat} {op : Operation}
    (h : ∀ call, op ≠ .call place call) (answer : Except SqlError Answer) :
    k.along place op answer = k := by
  cases op with
  | call p call =>
    have hp : p ≠ place := fun heq ↦ h call (by rw [heq])
    exact if_neg hp
  | _ => rfl

/-- The cursor for the statement in a place after operations. -/
def run (k : ChainCursor) (place : Nat) (s : Session) : List Operation → ChainCursor
  | [] => k
  | op :: rest => (k.along place op (s.step op).1).run place (s.step op).2 rest

end ChainCursor

/-- The call leaves the results of the last execution to advances, reads and setters. -/
def Call.follows : Call → Bool
  | .close => false
  | call => call.quiet

/-- The operation executes nothing on the statement in the place, and does not end it. -/
def Operation.follows (place : Nat) : Operation → Bool
  | .call p asked => p != place || asked.follows
  | .drop p => p != place
  | _ => true

/-- The response at a position of a chain carries rows. -/
def carriesRows (l : List Response) (n : Nat) : Bool :=
  match l[n]? with
  | some r => r.hasRows
  | none => false

namespace Execution

/-- The packets that the connection gives for the commands of the execution. -/
def given (e : Execution) : List Packet :=
  e.context.connection.packets e.context.connection.issued e.sent

end Execution

theorem Response.shows_refl (r : Response) (b : Binding) :
    r.Shows false { r with binding := b } := ⟨rfl, rfl, .inl ⟨rfl, rfl, rfl⟩⟩

/-- A response that was asked to close may be shut. -/
theorem Response.Shows.asked {given r : Response} {shut : Bool} (h : given.Shows shut r) :
    given.Shows true r where
  updateCount := h.updateCount
  generatedKey := h.generatedKey
  state := h.state.imp_right fun ⟨_, h⟩ ↦ ⟨rfl, h⟩

/-- Serving a request to a single response shows the same response, shut at most on request. -/
theorem Packet.serve_shows {given r : Response} {shut : Bool} (h : given.Shows shut r)
    (q : Packet.Request) :
    ∃ r', ((⟨r, []⟩ : Packet).serve q).packet = ⟨r', []⟩ ∧
      given.Shows (if q = .close then true else shut) r' := by
  by_cases hq : q = .close
  · rw [hq, (Packet.serve_close ⟨r, []⟩).1, if_pos rfl]
    by_cases hc : r.closed = true
    · exact ⟨r, by simp [Packet.close, hc], h.asked⟩
    · refine ⟨r.shut, by simp [Packet.close, hc], h.updateCount, h.generatedKey, .inr ?_⟩
      exact ⟨rfl, rfl, rfl, rfl⟩
  · obtain ⟨-, cursor, warnings, hpacket⟩ := Packet.serve_reading ⟨r, []⟩ hq
    rw [hpacket, if_neg hq]
    exact ⟨_, rfl, h.updateCount, h.generatedKey, h.state⟩

namespace Statement

/-- Settings have nothing to do with the slots. -/
theorem slots_runSetters {fs : List Setter} (h : ∀ f ∈ fs, ∃ v : Setting, f = v.setter)
    (s : Statement) (c : Context) :
    (s.runSetters c fs).statement.current = s.current ∧
      (s.runSetters c fs).statement.pending = s.pending := by
  refine runSetters_keeps (R := fun s _ s' _ ↦ s'.current = s.current ∧ s'.pending = s.pending)
    (fun _ _ ↦ ⟨rfl, rfl⟩) ?_ ?_ h s c
  · intro s s' s'' c c' c'' h₁ h₂
    exact ⟨h₂.1.trans h₁.1, h₂.2.trans h₁.2⟩
  · intro v s s' c c' hv
    cases (setter_ok hv).2 <;> exact ⟨rfl, rfl⟩

/-- Behind an execution only advances and requests to the current result touch the slots. -/
theorem slots_perform {call : Call} (hf : call.follows = true) (hmore : ∀ mode, call ≠ .more mode)
    (hserve : ∀ q, call ≠ .serve q) (s : Statement) (c : Context) :
    (s.perform c call).statement.current = s.current ∧
      (s.perform c call).statement.pending = s.pending := by
  cases call with
  | execute _ _ => simp [Call.follows, Call.quiet] at hf
  | query _ => simp [Call.follows, Call.quiet] at hf
  | update _ _ => simp [Call.follows, Call.quiet] at hf
  | largeUpdate _ => simp [Call.follows, Call.quiet] at hf
  | runBatch => simp [Call.follows, Call.quiet] at hf
  | close => simp [Call.follows] at hf
  | more mode => exact absurd rfl (hmore mode)
  | serve q => exact absurd rfl (hserve q)
  | forgetWarnings =>
    simp only [perform, Outcome.answer, forgetWarnings]
    split <;> exact ⟨rfl, rfl⟩
  | enqueue sql =>
    simp only [perform, Outcome.answer, enqueue]
    split
    · exact ⟨rfl, rfl⟩
    · split <;> exact ⟨rfl, rfl⟩
  | clearQueue =>
    simp only [perform, Outcome.answer, clearQueue]
    split <;> exact ⟨rfl, rfl⟩
  | configure g => exact slots_runSetters (fun f hf ↦ mem_configSetters hf) s c
  | set v => exact slots_runSetters (fun f hf ↦ ⟨v, List.mem_singleton.1 hf⟩) s c
  | result => exact ⟨rfl, rfl⟩
  | generatedKeys => exact ⟨rfl, rfl⟩
  | warnings => exact ⟨rfl, rfl⟩
  | connection => exact ⟨rfl, rfl⟩
  | setCursorName name => exact ⟨rfl, rfl⟩
  | cancel => exact ⟨rfl, rfl⟩

/-- The slots hold the chain from the cursor on. -/
structure Holds (t : Statement) (l : List Response) (k : ChainCursor) : Prop where
  current : (∃ given r, l[k.taken]? = some given ∧ t.current = some ⟨r, []⟩ ∧
      given.Shows k.shut r) ∨ l.length ≤ k.taken ∧ t.current = none
  pending : (∃ r rest b, l.drop (k.taken + 1) = r :: rest ∧
      t.pending = some ⟨{ r with binding := b }, rest⟩) ∨
    l.length ≤ k.taken + 1 ∧ t.pending = none

variable {t : Statement} {l : List Response} {k : ChainCursor}

/-- Only the slots matter. -/
theorem Holds.of_slots (h : t.Holds l k) {t' : Statement} (hc : t'.current = t.current)
    (hp : t'.pending = t.pending) : t'.Holds l k :=
  ⟨hc ▸ h.current, hp ▸ h.pending⟩

/-- A presented packet is held from its first response on. Taking it over changes the binding and
the warnings of its first response, which a chain does not tell. -/
theorem holds_present (s u : Statement) (p : Packet) :
    (s.present (u.adopt p)).Holds p.toList {} := by
  obtain ⟨head, followOns⟩ := p
  refine ⟨.inl ⟨head, _, rfl, rfl, rfl, rfl, .inl ⟨rfl, rfl, rfl⟩⟩, ?_⟩
  cases followOns with
  | nil => exact .inr ⟨Nat.le_refl 1, rfl⟩
  | cons r rest => exact .inl ⟨r, rest, s.binding, rfl, rfl⟩

/-- A successful execution holds the last packet that the connection gave, from its first response
on. -/
theorem holds_attempt {s : Statement} {c : Context} {kind : StatementKind} {sql : String}
    (h : (s.attempt c kind sql).result.isOk = true) :
    ∃ p, (Execution.given ⟨s, c, kind, sql⟩).getLast? = some p ∧
      (s.attempt c kind sql).statement.Holds p.toList {} := by
  have hx := s.attempt_course c kind sql
  have hafter : (⟨s, c, kind, sql⟩ : Execution).outcome = s.attempt c kind sql := rfl
  generalize s.attempt c kind sql = o at h hx hafter ⊢
  cases hx with
  | refused _ => simp [Except.isOk, Except.toBool] at h
  | lockedOut _ _ => simp [Except.isOk, Except.toBool] at h
  | failed _ _ _ => simp [Except.isOk, Except.toBool] at h
  | rejected _ _ _ _ => simp [Except.isOk, Except.toBool] at h
  | @presented text l c' p hp hl hx hm =>
    have hbooks := connection_of_opening hl
    obtain ⟨sent, _, hsent⟩ := exchange_exchanged (hbooks ▸ open_of_prepare hp) hx
    have hadded : (⟨s, c, kind, sql⟩ : Execution).sent = sent := by
      rw [Execution.sent, Execution.after, hafter]
      simp [hsent.dispatches, hbooks]
    refine ⟨p, ?_, holds_present _ s p⟩
    rw [Execution.given, hadded, ← hbooks]
    exact hsent.given p rfl

/-- An advance moves on by one response, whatever the mode. -/
theorem Holds.advanced (h : t.Holds l k) (mode : MoreResults) :
    (t.advanced mode).Holds l ⟨k.taken + 1, false⟩ := by
  rcases h.pending with ⟨r, rest, b, hd, hp⟩ | ⟨hlen, hp⟩
  · have hr : l[k.taken + 1]? = some r := by
      rw [← List.head?_drop, hd]
      rfl
    have hrest : l.drop (k.taken + 1 + 1) = rest := by
      rw [← List.drop_drop, hd]
      rfl
    refine ⟨.inl ⟨r, { r with binding := b }, hr, ?_, r.shows_refl b⟩, ?_⟩
    · simp [Statement.advanced, hp, Packet.withoutNext]
    · cases rest with
      | nil =>
        refine .inr ⟨List.drop_eq_nil_iff.1 hrest, ?_⟩
        simp [Statement.advanced, hp, Packet.next?]
      | cons r' rest' =>
        refine .inl ⟨r', rest', t.binding, hrest, ?_⟩
        simp [Statement.advanced, hp, Packet.next?, Packet.bind, Statement.binding]
  · refine ⟨.inr ⟨hlen, ?_⟩, .inr ⟨Nat.le_succ_of_le hlen, ?_⟩⟩
    · simp [Statement.advanced, hp]
    · simp [Statement.advanced, hp]

/-- Serving a request leaves the cursor in place. -/
theorem Holds.serve (h : t.Holds l k) (c : Context) (q : Packet.Request) :
    (t.serveCurrent c q).statement.Holds l
      { k with shut := if q = .close then true else k.shut } := by
  have asked {given r : Response} (hs : given.Shows k.shut r) :
      given.Shows (if q = .close then true else k.shut) r := by
    split
    · exact hs.asked
    · exact hs
  rcases t.serveCurrent_cases c q with ⟨hs, -⟩ | ⟨p, -, hp, -, hs, -⟩
  · rw [hs]
    refine ⟨?_, h.pending⟩
    rcases h.current with ⟨given, r, hl, hc, hshow⟩ | hnone
    · exact .inl ⟨given, r, hl, hc, asked hshow⟩
    · exact .inr hnone
  · rw [hs]
    refine ⟨?_, h.pending⟩
    rcases h.current with ⟨given, r, hl, hc, hshow⟩ | ⟨-, hc⟩
    · rw [hp] at hc
      obtain ⟨r', hr', hshow'⟩ := Packet.serve_shows hshow q
      rw [Option.some.inj hc]
      exact .inl ⟨given, r', hl, congrArg some hr', hshow'⟩
    · rw [hp] at hc
      simp at hc

/-- A call that follows an execution moves the cursor as the plain account says. -/
theorem Holds.follow (h : t.Holds l k) {call : Call} (hf : call.follows = true) (c : Context) :
    (t.perform c call).statement.Holds l (k.follow call (t.perform c call).result.isOk) := by
  cases call with
  | more mode =>
    change ((t.advance c mode).answer .flag).statement.Holds l
      (k.follow (.more mode) ((t.advance c mode).answer .flag).result.isOk)
    cases hu : t.usable c with
    | error e =>
      rw [advance_error hu]
      exact h
    | ok u =>
      rw [advance_ok hu]
      exact h.advanced mode
  | serve q =>
    have hs := h.serve c q
    cases q <;> exact hs
  | _ =>
    obtain ⟨hc, hp⟩ := slots_perform hf (by simp) (by simp) t c
    exact h.of_slots hc hp

end Statement

namespace Statement

/-- What a statement shows of a chain of results at a cursor. -/
structure ShowsChain (t : Statement) (l : List Response) (k : ChainCursor) : Prop where
  /-- Within the chain the response at the cursor is current. -/
  within : k.taken < l.length → ∃ given r, l[k.taken]? = some given ∧
    t.current = some ⟨r, []⟩ ∧ given.Shows k.shut r
  /-- A result is pending while the chain goes on. -/
  more : t.hasMore = decide (k.taken + 1 < l.length)
  /-- Behind the chain there is no result and no update count. -/
  beyond : l.length ≤ k.taken → t.current = none ∧ t.pending = none ∧
    ∀ c, t.currentRows c = (t.usable c).map (fun _ ↦ none) ∧
      t.largeUpdateCount c = (t.usable c).map fun _ ↦ -1
  /-- In every mode the next advance tells whether the next response carries rows. -/
  answer : ∀ c mode, (t.advance c mode).result =
    (t.usable c).map fun _ ↦ carriesRows l (k.taken + 1)
  /-- An advance closes the current result, nothing, or all results at hand, as its mode says, and
  keeps the rest. -/
  closes : ∀ c mode, t.usable c = .ok () →
    (t.advance c mode).context.released =
        c.released ++ (t.retiring mode).flatMap Packet.closing ∧
      (t.advance c mode).statement.retained = t.keeping mode
  /-- Closing the current result by hand runs its hook and leaves all others alone. -/
  byHand : ∀ c, (t.serveCurrent c .close).statement.pending = t.pending ∧
    (t.serveCurrent c .close).statement.retained = t.retained ∧
      (t.serveCurrent c .close).context.released = c.released ++
        match t.currentRows c with
        | .ok (some p) => p.closing
        | _ => []

/-- Closing by hand concerns the current result only. -/
theorem serveCurrent_close (t : Statement) (c : Context) :
    (t.serveCurrent c .close).statement.pending = t.pending ∧
      (t.serveCurrent c .close).statement.retained = t.retained ∧
        (t.serveCurrent c .close).context.released = c.released ++
          match t.currentRows c with
          | .ok (some p) => p.closing
          | _ => [] := by
  unfold serveCurrent
  split
  · next h => simp [h]
  · next h => simp [h]
  · next p h =>
    rw [h]
    refine ⟨rfl, rfl, ?_⟩
    rw [Context.released_noteAll, p.serve_close.2]
    rfl

/-- Slots that hold a chain show it. -/
theorem Holds.showsChain {t : Statement} {l : List Response} {k : ChainCursor}
    (h : t.Holds l k) : t.ShowsChain l k where
  within hlt := by
    rcases h.current with hc | ⟨hlen, -⟩
    · exact hc
    · omega
  more := by
    rcases h.pending with ⟨r, rest, b, hd, hp⟩ | ⟨hlen, hp⟩
    · have hlt : k.taken + 1 < l.length := by
        have := congrArg List.length hd
        rw [List.length_drop, List.length_cons] at this
        omega
      simp [hasMore, hp, hlt]
    · have hge : ¬k.taken + 1 < l.length := by omega
      simp [hasMore, hp, hge]
  beyond hlen := by
    have hc : t.current = none := by
      rcases h.current with ⟨given, r, hl, -, -⟩ | ⟨-, hc⟩
      · have := (List.getElem?_eq_some_iff.1 hl).1
        omega
      · exact hc
    have hp : t.pending = none := by
      rcases h.pending with ⟨r, rest, b, hd, -⟩ | ⟨-, hp⟩
      · have := congrArg List.length hd
        rw [List.length_drop, List.length_cons] at this
        omega
      · exact hp
    refine ⟨hc, hp, fun c ↦ ⟨?_, ?_⟩⟩
    · simp [currentRows, read, slotHasRows, hc]
    · simp [largeUpdateCount, read, hc]
  answer c mode := by
    cases hu : t.usable c with
    | error e =>
      rw [advance_error hu]
      rfl
    | ok u =>
      rw [advance_ok hu]
      have hn := h.advanced mode
      rcases hn.current with ⟨given, r, hl, hc, hshow⟩ | ⟨hlen, hc⟩
      · have hrows : r.rows = given.rows := by
          rcases hshow.state with ⟨hr, -, -⟩ | ⟨hf, -⟩
          · exact hr
          · simp at hf
        dsimp only at hl ⊢
        rw [hc, carriesRows, hl]
        simp [slotHasRows, Response.hasRows, hrows, Except.map]
      · have hnone : l[k.taken + 1]? = none := List.getElem?_eq_none hlen
        dsimp only
        rw [hc, carriesRows, hnone]
        rfl
  closes c mode hu := by
    rw [advance_ok hu]
    exact ⟨c.released_releaseAll _, rfl⟩
  byHand := t.serveCurrent_close

end Statement

namespace Session

/-- An operation elsewhere leaves the statement in a place as it is. -/
theorem statement?_step {s : Session} {place : Nat} {t : Statement}
    (ht : s.statement? place = some t) {op : Operation} (hf : op.follows place = true)
    (hc : ∀ call, op ≠ .call place call) : (s.step op).2.statement? place = some t := by
  have hplace := statement?_eq_some.1 ht
  rw [statement?_eq_some]
  have hstep := s.step_stepped op
  generalize (s.step op).2 = s' at hstep ⊢
  cases hstep with
  | idle => exact hplace
  | made _ _ _ _ =>
    have hlt := (List.getElem?_eq_some_iff.1 hplace).1
    exact (List.getElem?_append_left hlt).trans hplace
  | unmade _ _ _ _ => exact hplace
  | @called p u hu call =>
    have hne : p ≠ place := by
      intro heq
      exact hc call (by rw [heq])
    exact (List.getElem?_set_ne hne).trans hplace
  | @dropped p u hu =>
    have hne : p ≠ place := by simpa [Operation.follows] using hf
    exact (List.getElem?_set_ne hne).trans hplace
  | beside _ => exact hplace
  | underwent _ _ => exact hplace

/-- A call changes the statement in its place and answers for it. -/
theorem step_call {s : Session} {place : Nat} {t : Statement}
    (ht : s.statement? place = some t) (call : Call) :
    (s.step (.call place call)).1 = (t.perform s.context call).result ∧
      (s.step (.call place call)).2.context = (t.perform s.context call).context ∧
        (s.step (.call place call)).2.statement? place =
          some (t.perform s.context call).statement := by
  have hlt := (List.getElem?_eq_some_iff.1 (statement?_eq_some.1 ht)).1
  rw [step_call_eq ht, statement?_eq_some]
  exact ⟨rfl, rfl, List.getElem?_set_self hlt⟩

/-- An operation that follows an execution is a call of the statement that follows it, or leaves the
statement as it is. -/
theorem step_follows {s : Session} {place : Nat} {t : Statement}
    (ht : s.statement? place = some t) {op : Operation} (hf : op.follows place = true) :
    (∃ call, op = .call place call ∧ call.follows = true ∧
      (s.step op).1 = (t.perform s.context call).result ∧
        (s.step op).2.statement? place = some (t.perform s.context call).statement) ∨
      (∀ call, op ≠ .call place call) ∧ (s.step op).2.statement? place = some t := by
  by_cases hc : ∃ call, op = .call place call
  · obtain ⟨call, rfl⟩ := hc
    obtain ⟨ha, -, hs⟩ := step_call ht call
    exact .inl ⟨call, rfl, by simpa [Operation.follows] using hf, ha, hs⟩
  · have hne : ∀ call, op ≠ .call place call := fun call heq ↦ hc ⟨call, heq⟩
    exact .inr ⟨hne, statement?_step ht hf hne⟩

/-- An operation that follows an execution moves the cursor as the plain account says. -/
theorem holds_step {s : Session} {place : Nat} {t : Statement} {l : List Response}
    {k : ChainCursor} (ht : s.statement? place = some t) (hk : t.Holds l k) {op : Operation}
    (hf : op.follows place = true) :
    ∃ t', (s.step op).2.statement? place = some t' ∧
      t'.Holds l (k.along place op (s.step op).1) := by
  rcases step_follows ht hf with ⟨call, rfl, hcall, ha, hs⟩ | ⟨hne, hs⟩
  · refine ⟨_, hs, ?_⟩
    rw [ha, ChainCursor.along_call]
    exact hk.follow hcall s.context
  · refine ⟨t, hs, ?_⟩
    rw [ChainCursor.along_elsewhere hne]
    exact hk

/-- Operations that follow an execution move the cursor as the plain account says. -/
theorem holds_run {s : Session} {place : Nat} {t : Statement} {l : List Response}
    {k : ChainCursor} {ops : List Operation} (ht : s.statement? place = some t)
    (hk : t.Holds l k) (hf : ∀ op ∈ ops, op.follows place = true) :
    ∃ t', (s.run ops).statement? place = some t' ∧ t'.Holds l (k.run place s ops) := by
  induction ops generalizing s t k with
  | nil => exact ⟨t, ht, hk⟩
  | cons op rest ih =>
    obtain ⟨t', ht', hk'⟩ := holds_step ht hk (hf op (by simp))
    exact ih ht' hk' fun o ho ↦ hf o (by simp [ho])

end Session

end SqlSession
