import SqlSession.Proofs.Holding
import SqlSession.Proofs.Ledger
import SqlSession.Proofs.Slots

/-!
# The custody of hooks

A hook that a connection hands out in a packet runs exactly once. Until then it is in the
custody of one statement: in its current result, in its pending one with what follows, or in one
that it keeps. Every step of a session keeps the number of times that a hook is owed equal to
the number of times that it is held.
-/

namespace SqlSession

namespace Statement

/-- The results that a statement holds are sound, those that wait are open, and a closed
statement holds none. -/
structure Sound (s : Statement) : Prop where
  current : ∀ p, s.current = some p → p.Sound
  pending : ∀ p, s.pending = some p → p.Open
  retained : ∀ p ∈ s.retained, p.Sound
  closed : s.closed = true → s.hooks = []

/-- Emptying the slots of an open statement leaves it sound. -/
theorem Sound.emptied {s t : Statement} (hs : s.Sound) (ho : s.closed = false)
    (hc : t.current = none) (hp : t.pending = none) (hr : t.retained = s.retained)
    (hcl : t.closed = s.closed) : t.Sound where
  current := by simp [hc]
  pending := by simp [hp]
  retained := hr ▸ hs.retained
  closed := by simp [hcl, ho]

/-- Presenting an open packet leaves an open statement sound. -/
theorem Sound.present {s t : Statement} {p : Packet} (hs : s.Sound) (hp : p.Open)
    (ho : s.closed = false) (hr : t.retained = s.retained) (hcl : t.closed = s.closed) :
    (t.present p).Sound where
  current := by
    intro q hq
    rw [← Option.some.inj hq]
    exact hp.withoutNext.sound
  pending := by
    intro q hq
    obtain ⟨r, hr, rfl⟩ := Option.map_eq_some_iff.1 hq
    exact (hp.next? hr).bind _
  retained := by
    intro q hq
    exact hs.retained q (hr ▸ hq)
  closed := by
    intro hc
    exact absurd ((hcl.trans ho).symm.trans hc) Bool.false_ne_true

/-- A presented packet is held, and what was kept is still held. -/
theorem count_present (s : Statement) (p : Packet) (h : Hook) :
    (s.present p).hooks.count h =
      p.hooks.count h + (s.retained.flatMap Packet.hooks).count h := by
  rw [count_hooks, ← p.count_hooks_next? h]
  have hn : (p.next?.map fun q ↦ q.bind s.binding).toList.flatMap Packet.hooks =
      p.next?.toList.flatMap Packet.hooks := by
    cases p.next? <;> simp [Packet.hooks_bind]
  simp only [present, hn]
  simp

/-- A step from orderly books and sound results to such, that settles or takes over exactly what
it runs and what is handed out. -/
def Conserves (s : Statement) (c : Context) (s' : Statement) (c' : Context) : Prop :=
  c.connection.Orderly → s.Sound →
    c'.connection.Orderly ∧ s'.Sound ∧
      ∀ h, c'.owing h - s'.hooks.count h = c.owing h - s.hooks.count h

/-- Before an execution sends anything, what was in the slots has run. -/
theorem balance_opening {s : Statement} {c : Context} (hs : s.Sound) (kind : StatementKind)
    (text : String) (h : Hook) :
    (s.opening c kind text).owing h - s.cleared.hooks.count h = c.owing h - s.hooks.count h := by
  rw [opening, Context.owing_log,
    Context.owing_releaseSlot _ h fun p hp ↦ (hs.pending p hp).sound,
    Context.owing_releaseSlot _ h hs.current, count_hooks, count_hooks]
  simp only [cleared, Option.toList_none, List.flatMap_nil, List.count_nil]
  omega

/-- Behind the exchange of an execution, what is owed is held or in the packet that came back. -/
theorem balance_exchange {s : Statement} {c l c' : Context} {kind : StatementKind} {text : String}
    {outcome : Except SqlError Packet} (ho : c.connection.Orderly) (hs : s.Sound)
    (hl : (s.opening c kind text).lock = .ok l)
    (hx : s.cleared.exchangeInCatalog l text (s.shape kind text) = (outcome, c')) :
    c'.connection.Orderly ∧ (∀ p, outcome = .ok p → p.Open) ∧
      ∀ h, c'.owing h - (s.cleared.hooks.count h + (outcomeHooks outcome).count h : Int) =
        c.owing h - s.hooks.count h := by
  have hex := s.cleared.exchangeInCatalog_exchange l text (s.shape kind text)
  rw [hx] at hex
  have hk := connection_of_opening hl
  have hy := yields_exchange hex (hk ▸ ho)
  refine ⟨hy.orderly, hy.opened, ?_⟩
  intro h
  have hopening := balance_opening (c := c) hs kind text h
  have howing := hy.owing h
  rw [Context.owing_lock hl] at howing
  dsimp only at howing
  omega

/-- An attempt conserves hooks: what it takes out of the slots runs, and what it is given runs
or goes into the slots. -/
theorem conserves_attempt (s : Statement) (c : Context) (kind : StatementKind) (sql : String) :
    Conserves s c (s.attempt c kind sql).statement (s.attempt c kind sql).context := by
  intro ho hs
  have hx := s.attempt_course c kind sql
  generalize s.attempt c kind sql = o at hx ⊢
  have isOpen {text : String} (h : s.prepare c kind sql = .ok text) : s.closed = false :=
    (usable_ok (usable_of_prepare h)).1
  cases hx with
  | refused _ => exact ⟨ho, hs, fun h ↦ rfl⟩
  | @lockedOut text _ hp _ =>
    exact ⟨by simpa [opening] using ho, hs.emptied (isOpen hp) rfl rfl rfl rfl,
      balance_opening hs kind text⟩
  | failed hp hl hx =>
    obtain ⟨h1, -, h3⟩ := balance_exchange ho hs hl hx
    refine ⟨by simpa using h1, hs.emptied (isOpen hp) rfl rfl rfl rfl, ?_⟩
    intro h
    have := h3 h
    simp only [outcomeHooks, List.count_nil] at this
    simpa using this
  | @rejected text l c' p e hp hl hx hm =>
    obtain ⟨h1, h2, h3⟩ := balance_exchange ho hs hl hx
    have hopen : (s.adopt p).Open := ((h2 p rfl).bind _).withoutWarnings
    obtain ⟨hb, hw⟩ := (s.cleared.noting p).undo_books
      ((c'.unlock.count s.setup.scope fun m ↦
        m.addStatement kind c'.connection.elapsed).release (s.adopt p))
    refine ⟨hb.orderly (by simpa using h1), hs.emptied (isOpen hp) rfl rfl rfl rfl, ?_⟩
    intro h
    have := h3 h
    rw [reject, hw, Context.owing_release _ h hopen.sound]
    simp only [outcomeHooks] at this
    simp only [Context.owing_count, Context.owing_unlock, adopt, Packet.hooks_withoutWarnings,
      Packet.hooks_bind]
    change _ - ((s.cleared.hooks.count h : Nat) : Int) = _
    omega
  | @presented text l c' p hp hl hx hm =>
    obtain ⟨h1, h2, h3⟩ := balance_exchange ho hs hl hx
    have hopen : (s.adopt p).Open := ((h2 p rfl).bind _).withoutWarnings
    refine ⟨by simpa using h1, hs.present hopen (isOpen hp) rfl rfl, ?_⟩
    intro h
    have := h3 h
    have hr : (s.cleared.noting p).retained = s.cleared.retained := rfl
    have hc : s.cleared.hooks.count h = (s.cleared.retained.flatMap Packet.hooks).count h := by
      simp [count_hooks, cleared]
    rw [count_present, adopt, Packet.hooks_withoutWarnings, Packet.hooks_bind, hr]
    simp only [Context.owing_count, Context.owing_unlock]
    simp only [outcomeHooks] at this
    omega

/-- What an advance closes and what it keeps is sound. -/
theorem Sound.retiring_keeping {s : Statement} (hs : s.Sound) {mode : MoreResults} {p : Packet}
    (hp : p ∈ s.retiring mode ++ s.keeping mode) : p.Sound := by
  rcases mem_retiring_keeping hp with hmem | hmem
  · exact hs.current p hmem
  · exact hs.retained p hmem

/-- An advance leaves an open statement sound. -/
theorem Sound.advanced {s : Statement} (hs : s.Sound) (ho : s.closed = false)
    (mode : MoreResults) : (s.advanced mode).Sound where
  current := by
    intro p hp
    obtain ⟨q, hq, rfl⟩ := Option.map_eq_some_iff.1 hp
    exact (hs.pending q hq).withoutNext.sound
  pending := by
    intro p hp
    obtain ⟨q, hq, rfl⟩ := Option.map_eq_some_iff.1 hp
    obtain ⟨r, hr, hn⟩ := Option.bind_eq_some_iff.1 hq
    exact ((hs.pending r hr).next? hn).bind _
  retained := by
    intro p hp
    exact hs.retiring_keeping (List.mem_append_right _ hp)
  closed := by
    intro hc
    exact absurd (ho.symm.trans hc) Bool.false_ne_true

/-- What a statement holds is closed by an advance or held behind it. -/
theorem count_advanced (s : Statement) (mode : MoreResults) (h : Hook) :
    ((s.retiring mode).flatMap Packet.hooks).count h + (s.advanced mode).hooks.count h =
      s.hooks.count h := by
  -- the results at hand are those that are closed and those that are kept
  have hsplit : ((s.retiring mode).flatMap Packet.hooks).count h +
      ((s.keeping mode).flatMap Packet.hooks).count h =
        (s.current.toList.flatMap Packet.hooks).count h +
          (s.retained.flatMap Packet.hooks).count h := by
    cases mode with
    | closeCurrent => rfl
    | keepCurrent =>
      simp only [retiring, keeping, List.flatMap_append, List.count_append, List.flatMap_nil,
        List.count_nil]
      omega
    | closeAll => simp [retiring, keeping]
  have hnext : ((s.advanced mode).current.toList.flatMap Packet.hooks).count h +
      ((s.advanced mode).pending.toList.flatMap Packet.hooks).count h =
        (s.pending.toList.flatMap Packet.hooks).count h := by
    cases hp : s.pending with
    | none => simp [Statement.advanced, hp]
    | some p =>
      have hn := p.count_hooks_next? h
      cases hq : p.next? with
      | none => simpa [Statement.advanced, hp, hq] using hn
      | some q => simpa [Statement.advanced, hp, hq, Packet.hooks_bind] using hn
  have hkept : (s.advanced mode).retained = s.keeping mode := rfl
  rw [count_hooks, count_hooks, hkept]
  omega

/-- An advance conserves hooks: each packet moves on, is kept or is closed. -/
theorem conserves_advance (s : Statement) (c : Context) (mode : MoreResults) :
    Conserves s c (s.advance c mode).statement (s.advance c mode).context := by
  intro ho hs
  cases hu : s.usable c with
  | error e =>
    rw [advance_error hu]
    exact ⟨ho, hs, fun h ↦ rfl⟩
  | ok u =>
    rw [advance_ok hu]
    refine ⟨by simpa using ho, hs.advanced (usable_ok hu).1 mode, ?_⟩
    intro h
    have hcount := s.count_advanced mode h
    dsimp only
    rw [Context.owing_releaseAll c h fun p hp ↦
      hs.retiring_keeping (List.mem_append_left _ hp)]
    omega

/-- Serving a request conserves hooks: closing a result runs its own. -/
theorem conserves_serve (s : Statement) (c : Context) (q : Packet.Request) :
    Conserves s c (s.serveCurrent c q).statement (s.serveCurrent c q).context := by
  intro ho hs
  rcases s.serveCurrent_cases c q with ⟨h1, h2⟩ | ⟨p, hu, hp, -, h1, h2⟩
  · rw [h1, h2]
    exact ⟨ho, hs, fun h ↦ rfl⟩
  · obtain ⟨hsound, hcount⟩ := (hs.current p hp).serve q
    rw [h1, h2]
    refine ⟨by simpa using ho, ⟨?_, hs.pending, hs.retained, ?_⟩, fun h ↦ ?_⟩
    · intro r hr
      rw [← Option.some.inj hr]
      exact hsound
    · intro hc
      exact absurd ((usable_ok hu).1.symm.trans hc) Bool.false_ne_true
    · have := hcount h
      rw [count_hooks, count_hooks, hp]
      simp only [Context.owing, Context.connection_noteAll, Context.released_noteAll,
        List.count_append, Option.toList_some, List.flatMap_cons, List.flatMap_nil,
        List.append_nil]
      omega

/-- A change of a setting moves no hook. -/
theorem conserves_set (v : Setting) {s s' : Statement} {c c' : Context}
    (h : v.setter s c = .ok (s', c')) : Conserves s c s' c' := by
  intro ho hs
  cases (setter_ok h).2 with
  | @limited n l _ _ hl =>
    have hk : c.connection.SameBooks c.connection.announceLimit := ⟨rfl, rfl, rfl⟩
    rw [Context.lock_ok hl]
    refine ⟨hk.orderly ho, ⟨hs.current, hs.pending, hs.retained, hs.closed⟩, fun h ↦ ?_⟩
    have := c.owing_connection h hk
    exact congrArg (· - (s.hooks.count h : Int)) this
  | looked _ hl =>
    rw [Context.lock_ok hl]
    exact ⟨ho, ⟨hs.current, hs.pending, hs.retained, hs.closed⟩, fun h ↦ rfl⟩
  | stored _ => exact ⟨ho, ⟨hs.current, hs.pending, hs.retained, hs.closed⟩, fun h ↦ rfl⟩

/-- A closed statement holds nothing. -/
theorem hooks_close {s : Statement} (hs : s.Sound) (c : Context) : (s.close c).1.hooks = [] := by
  unfold close
  split
  · next hc => exact hs.closed hc
  · rfl

/-- Closing a statement runs all that it holds. -/
theorem conserves_close (s : Statement) (c : Context) :
    Conserves s c (s.close c).1 (s.close c).2 := by
  intro ho hs
  have hn := hooks_close hs c
  unfold close at hn ⊢
  split at hn
  · next hc =>
    rw [if_pos hc]
    exact ⟨ho, hs, fun h ↦ rfl⟩
  · next hc =>
    rw [if_neg hc]
    refine ⟨by simpa using ho, ⟨by simp, by simp, by simp, fun _ ↦ hn⟩, fun h ↦ ?_⟩
    dsimp only at hn ⊢
    rw [hn, Context.owing_log, Context.owing_releaseAll _ h hs.retained,
      Context.owing_releaseSlot _ h fun p hp ↦ (hs.pending p hp).sound,
      Context.owing_releaseSlot _ h hs.current, count_hooks s]
    simp only [List.count_nil]
    omega

/-- Every step of a call conserves hooks. -/
theorem conserves_law : StepLaw Conserves where
  refl _ _ ho hs := ⟨ho, hs, fun _ ↦ rfl⟩
  trans h1 h2 ho hs := by
    obtain ⟨ho', hs', hb⟩ := h1 ho hs
    obtain ⟨ho'', hs'', hb'⟩ := h2 ho' hs'
    exact ⟨ho'', hs'', fun h ↦ (hb' h).trans (hb h)⟩
  aside _ _ _ _ ho hs :=
    ⟨ho, ⟨hs.current, hs.pending, hs.retained, hs.closed⟩, fun _ ↦ rfl⟩
  borrow _ _ _ ho hs := ⟨ho, hs, fun _ ↦ rfl⟩
  log _ _ _ ho hs := ⟨by simpa using ho, hs, fun h ↦ by rw [Context.owing_log]⟩
  failedBatch _ _ _ ho hs := ⟨by simpa using ho, hs, fun h ↦ by rw [Context.owing_count]⟩
  attempt := conserves_attempt
  advance := conserves_advance
  serve := conserves_serve
  set := conserves_set
  close := conserves_close

end Statement

namespace Session

/-- Exchanging what stands in a place exchanges its hooks. -/
private theorem count_hooks_set {ts : List (Option Statement)} {place : Nat}
    {old : Option Statement} (hold : ts[place]? = some old) (new : Option Statement) (h : Hook) :
    ((ts.set place new).flatMap fun t ↦ t.toList.flatMap Statement.hooks).count h +
        (old.toList.flatMap Statement.hooks).count h =
      (ts.flatMap fun t ↦ t.toList.flatMap Statement.hooks).count h +
        (new.toList.flatMap Statement.hooks).count h := by
  induction ts generalizing place with
  | nil => simp at hold
  | cons t rest ih =>
    cases place with
    | zero =>
      simp only [List.getElem?_cons_zero, Option.some.injEq] at hold
      subst hold
      simp only [List.set_cons_zero, List.flatMap_cons, List.count_append]
      omega
    | succ n =>
      have hn := @ih n (by simpa using hold)
      simp only [List.set_cons_succ, List.flatMap_cons, List.count_append]
      omega

/-- The books are in order, and every statement is sound. -/
structure InOrder (s : Session) : Prop where
  orderly : s.context.connection.Orderly
  sound : ∀ t, some t ∈ s.statements → t.Sound

theorem inOrder_start {connection : Connection} (hf : connection.Fresh)
    (ha : connection.AnswersOpen) : (start connection).InOrder where
  orderly := ⟨ha, by simp [start, Connection.handedOut, hf.dispatches, hf.issued, Packet.numbered]⟩
  sound := by simp [start]

/-- What the application does with the connection keeps its books, even if it sends a command. -/
theorem orderly_connectionCall {c : Context} (ho : c.connection.Orderly) (call : ConnectionCall) :
    (connectionCall c call).2.connection.Orderly := by
  cases hd : (Operation.connection call).direct with
  | false => exact (connectionCall_books hd c).1.orderly ho
  | true =>
    cases call with
    | execute cmd => exact (Context.yields_send ho rfl).orderly
    | _ => simp [Operation.direct] at hd

/-- What is new in a place is as sound as what a call leaves. -/
theorem InOrder.set {s : Session} (hs : s.InOrder) {place : Nat} {t : Statement}
    (ht : s.statements[place]? = some (some t)) {t' : Statement} {c' : Context}
    (hc : Statement.Conserves t s.context t' c') {new : Option Statement}
    (hn : ∀ u, new = some u → u = t') :
    InOrder { s with context := c', statements := s.statements.set place new } := by
  obtain ⟨ho, hs', -⟩ := hc hs.orderly (hs.sound t (List.mem_of_getElem? ht))
  refine ⟨ho, fun u hu ↦ ?_⟩
  rcases List.mem_or_eq_of_mem_set hu with hu | hu
  · exact hs.sound u hu
  · rw [hn u hu.symm]
    exact hs'

/-- What a new statement holds before it is placed. -/
theorem sound_new {t : Statement} (ht : t.New) : t.Sound ∧ t.hooks = [] := by
  have hh : t.hooks = [] := by
    simp [Statement.hooks, ht.current, ht.pending, ht.retained]
  exact ⟨⟨by simp [ht.current], by simp [ht.pending], by simp [ht.retained], fun _ ↦ hh⟩, hh⟩

/-- Every operation leaves the books in order and the statements sound. -/
theorem inOrder_step {s : Session} (hs : s.InOrder) (op : Operation) : (s.step op).2.InOrder := by
  have law := Statement.conserves_law
  have hstep := s.step_stepped op
  generalize (s.step op).2 = s' at hstep ⊢
  cases hstep with
  | idle => exact hs
  | @made origin setup t fs ht hf =>
    obtain ⟨ho, hs', -⟩ := law.runSetters hf t s.context hs.orderly (sound_new ht).1
    refine ⟨ho, fun u hu ↦ ?_⟩
    rcases List.mem_append.1 hu with hu | hu
    · exact hs.sound u hu
    · rw [Option.some.inj (List.mem_singleton.1 hu)]
      exact ⟨hs'.current, hs'.pending, hs'.retained, hs'.closed⟩
  | @unmade origin setup t fs ht hf =>
    obtain ⟨ho, -, -⟩ := law.trans (law.runSetters hf t s.context) (law.close _ _)
      hs.orderly (sound_new ht).1
    exact ⟨ho, hs.sound⟩
  | called ht call =>
    exact hs.set ht (law.perform _ s.context call) fun u hu ↦ (Option.some.inj hu).symm
  | dropped ht => exact hs.set ht (law.close _ s.context) (by simp)
  | beside call => exact ⟨orderly_connectionCall hs.orderly call, hs.sound⟩
  | underwent op f =>
    cases f with
    | poison => exact ⟨hs.orderly, hs.sound⟩
    | dropConnection => exact ⟨hs.orderly, hs.sound⟩

/-- The books are in order, every statement is sound, and each hook is held as often as it is
owed. -/
structure InCustody (s : Session) : Prop where
  orderly : s.context.connection.Orderly
  sound : ∀ t, some t ∈ s.statements → t.Sound
  balance : ∀ h, s.context.owing h = s.hooks.count h

/-- A fresh connection has handed out nothing. -/
theorem inCustody_start {connection : Connection} (hf : connection.Fresh)
    (ha : connection.AnswersOpen) : (start connection).InCustody := by
  obtain ⟨horderly, hsound⟩ := inOrder_start hf ha
  refine ⟨horderly, hsound, fun h ↦ ?_⟩
  simp [start, hooks, Context.owing, Context.released, Connection.handedOut, hf.dispatches,
    Packet.numbered]

/-- A call or the end of a statement leaves the custody of the others alone. -/
theorem InCustody.balance_set {s : Session} (hs : s.InCustody) {place : Nat} {t : Statement}
    (ht : s.statements[place]? = some (some t)) {t' : Statement} {c' : Context}
    (hc : Statement.Conserves t s.context t' c') {new : Option Statement}
    (hh : new.toList.flatMap Statement.hooks = t'.hooks) (h : Hook) :
    let s' : Session := { s with context := c', statements := s.statements.set place new }
    s'.context.owing h = s'.hooks.count h := by
  obtain ⟨-, -, hb⟩ := hc hs.orderly (hs.sound t (List.mem_of_getElem? ht))
  have hset := count_hooks_set ht new h
  have hbal := hs.balance h
  have hstep := hb h
  rw [hh] at hset
  simp only [Option.toList_some, List.flatMap_cons, List.flatMap_nil, List.append_nil] at hset
  unfold hooks at hbal ⊢
  dsimp only
  omega

/-- Custody outlasts every operation that does not send a command beside the statements. -/
theorem inCustody_step {op : Operation} (hd : op.direct = false) {s : Session}
    (hs : s.InCustody) : (s.step op).2.InCustody := by
  have law := Statement.conserves_law
  have hstep := s.step_stepped op
  obtain ⟨horderly, hsound⟩ := inOrder_step ⟨hs.orderly, hs.sound⟩ op
  refine ⟨horderly, hsound, fun h ↦ ?_⟩
  have hbal := hs.balance h
  generalize (s.step op).2 = s' at hstep ⊢
  cases hstep with
  | idle => exact hbal
  | @made origin setup t fs ht hf =>
    obtain ⟨hsound, hnone⟩ := sound_new ht
    obtain ⟨-, -, hb⟩ := law.runSetters hf t s.context hs.orderly hsound
    have hstep := hb h
    rw [hnone, List.count_nil] at hstep
    unfold hooks at hbal ⊢
    simp only [List.flatMap_append, List.count_append, Option.toList_some, List.flatMap_cons,
      List.flatMap_nil, List.append_nil]
    change _ = ((_ + (t.runSetters s.context fs).statement.hooks.count h : Nat) : Int)
    omega
  | @unmade origin setup t fs ht hf =>
    obtain ⟨hsound, hnone⟩ := sound_new ht
    obtain ⟨-, -, hb⟩ := law.trans (law.runSetters hf t s.context) (law.close _ _)
      hs.orderly hsound
    have hstep := hb h
    have hclosed := Statement.hooks_close
      (law.runSetters hf t s.context hs.orderly hsound).2.1 (t.runSetters s.context fs).context
    rw [hnone, hclosed] at hstep
    unfold hooks at hbal ⊢
    simp only [List.count_nil] at hstep
    dsimp only
    omega
  | called ht call => exact hs.balance_set ht (law.perform _ s.context call) (by simp) h
  | dropped ht =>
    have hclosed := Statement.hooks_close (hs.sound _ (List.mem_of_getElem? ht)) s.context
    exact hs.balance_set ht (law.close _ s.context) (by simp [hclosed]) h
  | beside call =>
    obtain ⟨hk, hr⟩ := connectionCall_books hd s.context
    unfold Context.owing at hbal ⊢
    rw [hr, hk.handedOut]
    exact hbal
  | underwent op f =>
    cases f with
    | poison => exact hbal
    | dropConnection => exact hbal

/-- No hook is handed out twice. -/
theorem nodup_handedOut (c : Connection) : c.handedOut.Nodup := by
  have hn : (c.handedOut.map Hook.serial).Nodup := by
    rw [Connection.handedOut, Packet.serial_numbered]
    exact List.nodup_range'
  exact List.Pairwise.of_map Hook.serial (fun a b hab heq ↦ hab (heq ▸ rfl)) hn

/-- Each hook that a session was handed has run once or is held once, what has not run is held in
one slot of one statement, nothing else has run or is held, and once all statements are closed or
dropped each hook has run once. -/
theorem hooks_run_once {connection : Connection} {ops : List Operation} (hf : connection.Fresh)
    (ha : connection.AnswersOpen) (hd : ∀ op ∈ ops, op.direct = false) :
    let s := (start connection).run ops
    (∀ h ∈ s.context.connection.handedOut, s.context.released.count h + s.hooks.count h = 1) ∧
    (∀ h ∈ s.context.connection.handedOut, h ∉ s.context.released →
      ∃ place slot, s.Holds place slot h ∧
        ∀ place' slot', s.Holds place' slot' h → place' = place ∧ slot' = slot) ∧
    (∀ h, h ∈ s.context.released ∨ h ∈ s.hooks → h ∈ s.context.connection.handedOut) ∧
    ((∀ t, some t ∈ s.statements → t.closed = true) →
      ∀ h ∈ s.context.connection.handedOut, s.context.released.count h = 1) := by
  intro s
  have hs : s.InCustody :=
    run_induction (fun t op ho ht ↦ inCustody_step (hd op ho) ht) (inCustody_start hf ha)
  have hsum (h : Hook) : s.context.released.count h + s.hooks.count h =
      s.context.connection.handedOut.count h := by
    have := hs.balance h
    unfold Context.owing at this
    omega
  have hone : ∀ h ∈ s.context.connection.handedOut,
      s.context.released.count h + s.hooks.count h = 1 := by
    intro h hh
    rw [hsum, (nodup_handedOut _).count, if_pos hh]
  refine ⟨hone, ?_, ?_, ?_⟩
  · intro h hh hn
    have := hone h hh
    rw [List.count_eq_zero.2 hn, Nat.zero_add] at this
    exact holds_unique this
  · intro h hh
    rw [← List.count_pos_iff, ← hsum]
    rcases hh with hh | hh
    · have := List.count_pos_iff.2 hh
      omega
    · have := List.count_pos_iff.2 hh
      omega
  · intro hclosed h hh
    have hnone : s.hooks = [] := by
      rw [hooks, List.flatMap_eq_nil_iff]
      intro t ht
      cases t with
      | none => rfl
      | some t => simpa using (hs.sound t ht).closed (hclosed t ht)
    have := hone h hh
    rw [hnone, List.count_nil] at this
    omega

/-- The rows of a query are kept past an advance and dropped with the statement: both hooks have
run once. -/
theorem hooks_run_once_chained :
    let ops : List Operation :=
      [.make .plain {}, .call 0 (.query "SELECT 1"), .call 0 (.more .keepCurrent), .drop 0]
    let c := ((start .chained).run ops).context
    Connection.chained.Fresh ∧ Connection.chained.AnswersOpen ∧
      (∀ op ∈ ops, op.direct = false) ∧ c.connection.handedOut.length = 2 ∧
        ∀ h ∈ c.connection.handedOut, c.released.count h = 1 := by
  intro ops c
  have hf : Connection.chained.Fresh := ⟨rfl, rfl⟩
  have ha : Connection.chained.AnswersOpen := by
    intro r hr sql p hp
    rw [List.mem_singleton.1 hr] at hp
    rw [← Except.ok.inj hp]
    simp [Packet.Open, Packet.toList]
  have hd : ∀ op ∈ ops, op.direct = false := by simp [ops, Operation.direct]
  have hn : ((start .chained).run ops).statements = [none] := rfl
  refine ⟨hf, ha, hd, by decide +kernel, (hooks_run_once hf ha hd).2.2.2 ?_⟩
  intro t ht
  rw [hn] at ht
  simp at ht

end Session

end SqlSession
