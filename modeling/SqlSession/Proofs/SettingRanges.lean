import SqlSession.Proofs.Lifetime
import SqlSession.Proofs.SessionLimit
import SqlSession.Proofs.Terms

/-!
# The ranges of settings

The settings of every statement are within their ranges, whatever the statements and the
application do. A change of a setting is refused to a statement that is closed or has lost its
connection, for a value out of its range, and for a poisoned mutex where it needs the connection;
then nothing changes. Otherwise it changes what it names and nothing else, but a row limit is
announced to the connection.
-/

namespace SqlSession

/-- The settings are within their ranges over a connection. -/
structure Settings.InRange (t : Settings) (k : Connection) : Prop where
  maxRows : t.maxRows = noRowLimit ∨ 1 ≤ t.maxRows ∧ t.maxRows ≤ greatestRowLimit
  announced : 0 < t.maxRows → k.limitsRows = true
  maxFieldSize : 0 ≤ t.maxFieldSize ∧ t.maxFieldSize.toInt ≤ k.packetBudget
  queryTimeout : 0 ≤ t.queryTimeout
  fetchSize : t.fetchSize = streamRows ∨ 0 ≤ t.fetchSize

/-- Settings stay within their ranges over a connection that has the same packet budget and does
not cease to use limits. -/
theorem Settings.InRange.later {t : Settings} {k k' : Connection} (h : t.InRange k)
    (hb : k'.packetBudget = k.packetBudget) (hu : k.limitsRows = true → k'.limitsRows = true) :
    t.InRange k' where
  maxRows := h.maxRows
  announced := hu ∘ h.announced
  maxFieldSize := by
    rw [hb]
    exact h.maxFieldSize
  queryTimeout := h.queryTimeout
  fetchSize := h.fetchSize

namespace Setting

/-- The value of a change is one that the settings and the connection allow. -/
def Allowed (t : Settings) (k : Connection) : Setting → Prop
  | maxFieldSize n => 0 ≤ n ∧ n.toInt ≤ k.packetBudget
  | maxRows n => 0 ≤ n ∧ n ≤ greatestRowLimit
  | fetchSize n => n = streamRows ∨ 0 ≤ n ∧ (0 < t.maxRows → n ≤ t.maxRows)
  | queryTimeout n => 0 ≤ n
  | _ => True

instance (t : Settings) (k : Connection) : (v : Setting) → Decidable (v.Allowed t k)
  | maxFieldSize _ => inferInstanceAs (Decidable (_ ∧ _))
  | maxRows _ => inferInstanceAs (Decidable (_ ∧ _))
  | fetchSize _ => inferInstanceAs (Decidable (_ ∨ _))
  | queryTimeout n => inferInstanceAs (Decidable (0 ≤ n))
  | fetchDirection _ => .isTrue trivial
  | escapeProcessing _ => .isTrue trivial
  | resultSetType _ => .isTrue trivial
  | concurrency _ => .isTrue trivial

/-- The change needs the mutex of the connection. -/
def locks : Setting → Bool
  | maxFieldSize _ => true
  | maxRows _ => true
  | _ => false

/-- What a change has set is read back; whatever the fetch direction, rows are read forward. -/
def ReadsBack (t : Statement) (c : Context) : Setting → Prop
  | maxFieldSize n => t.maxFieldSize c = .ok n
  | maxRows n => t.maxRows c = .ok n
  | fetchSize n => t.fetchSize c = .ok n
  | queryTimeout n => t.queryTimeout c = .ok n
  | fetchDirection _ => t.fetchDirection c = .ok .forward
  | escapeProcessing on => t.escapeProcessing c = .ok on
  | resultSetType v => t.resultSetType c = .ok v
  | concurrency v => t.concurrency c = .ok v

/-- The fetch sizes that a statement allows: the marker for rows one by one, and those that are
neither negative nor above a positive row limit. -/
theorem allowsFetchSize_iff {s : Statement} {n : Int32} :
    s.allowsFetchSize n = true ↔
      n = streamRows ∨ 0 ≤ n ∧ (0 < s.settings.maxRows → n ≤ s.settings.maxRows) := by
  have hleast : streamRows ≤ s.settings.maxRows := Int32.minValue_le _
  have hlimit : s.settings.maxRows ≤ 0 ∨ n ≤ s.settings.maxRows ↔
      (0 < s.settings.maxRows → n ≤ s.settings.maxRows) := by
    rw [← Int32.not_lt, ← Decidable.imp_iff_not_or]
  simp only [Statement.allowsFetchSize, Bool.and_eq_true, Bool.or_eq_true, decide_eq_true_eq,
    beq_iff_eq]
  rw [hlimit]
  constructor
  · rintro ⟨h0 | rfl, hl⟩
    · exact .inr ⟨h0, hl⟩
    · exact .inl rfl
  · rintro (rfl | ⟨h0, hl⟩)
    · exact ⟨.inr rfl, fun _ ↦ hleast⟩
    · exact ⟨.inl h0, hl⟩

/-- A change has no fault if its value is allowed and the mutex can be taken where it needs it. -/
theorem fault?_eq_none_iff {v : Setting} {s : Statement} {c : Context} :
    v.fault? s c = none ↔
      v.Allowed s.settings c.connection ∧ ¬(v.locks = true ∧ c.poisoned = true) := by
  cases v with
  | maxFieldSize n =>
    simp only [fault?, Allowed, locks]
    by_cases hn : n < 0
    · simp [hn, ← Int32.not_lt]
    · by_cases hp : c.poisoned = true
      · simp [hn, hp]
      · by_cases hb : n.toInt > c.connection.packetBudget
        · simp [hn, hp, hb, ← Int.not_lt]
        · rw [if_neg hn, if_neg hp, if_neg hb]
          simp [hp, Int32.not_lt.1 hn, Int.not_lt.1 hb]
  | maxRows n =>
    simp only [fault?, Allowed, locks]
    by_cases hn : n < 0 ∨ greatestRowLimit < n
    · simp only [if_pos hn, ← Int32.not_lt, ← not_or]
      simp [hn]
    · by_cases hp : c.poisoned = true
      · simp [hn, hp]
      · obtain ⟨h0, hg⟩ := not_or.1 hn
        simp [hn, hp, Int32.not_lt.1 h0, Int32.not_lt.1 hg]
  | fetchSize n =>
    simp only [fault?, Allowed, locks, ← allowsFetchSize_iff]
    cases s.allowsFetchSize n <;> simp
  | queryTimeout n =>
    simp only [fault?, Allowed, locks]
    by_cases hn : n < 0
    · simp [hn, ← Int32.not_lt]
    · simp [hn, Int32.not_lt.1 hn]
  | _ => simp [fault?, Allowed, locks]

/-- A change is refused to a statement that cannot be used, for a value that is not allowed, and for
a poisoned mutex that it needs. -/
theorem setter_refused_iff {v : Setting} {s : Statement} {c : Context} :
    (∃ e, v.setter s c = .error e) ↔
      s.usable c ≠ .ok () ∨ ¬v.Allowed s.settings c.connection ∨
        v.locks = true ∧ c.poisoned = true := by
  have hfault : v.fault? s c ≠ none ↔
      ¬v.Allowed s.settings c.connection ∨ v.locks = true ∧ c.poisoned = true := by
    rw [ne_eq, fault?_eq_none_iff, Decidable.not_and_iff_not_or_not, Decidable.not_not]
  rw [← hfault, setter_eq]
  cases s.usable c with
  | error e => simp [Except.bind]
  | ok u => cases v.fault? s c <;> simp [Except.bind]

/-- What a change has set is read back from a statement that can be used. -/
theorem readsBack_of_allowed {v : Setting} {s : Statement} {c : Context}
    (hu : s.usable c = .ok ()) (ha : v.Allowed s.settings c.connection) :
    v.ReadsBack (s.adjust v.apply) (v.settle c) := by
  have hsame : (s.adjust v.apply).usable (v.settle c) = .ok () := by
    rw [← hu]
    cases v <;> rfl
  have hread {α : Type} (f : Statement → α) :
      (s.adjust v.apply).read (v.settle c) f = .ok (f (s.adjust v.apply)) := by
    rw [Statement.read, hsame, Except.map]
  cases v with
  | maxRows n =>
    refine (hread _).trans ?_
    change Except.ok (if (if n = 0 then noRowLimit else n) < 0 then 0 else
      if n = 0 then noRowLimit else n) = Except.ok n
    by_cases hz : n = 0
    · rw [hz]
      rfl
    · rw [if_neg hz, if_neg (Int32.not_lt.2 ha.1)]
  | _ => exact hread _

end Setting

namespace Statement

/-- A change that is made keeps the settings within their ranges. -/
theorem inRange_set (v : Setting) {s s' : Statement} {c c' : Context}
    (h : v.setter s c = .ok (s', c')) (hs : s.settings.InRange c.connection) :
    s'.settings.InRange c'.connection := by
  obtain ⟨-, hf, rfl, rfl⟩ := Setting.setter_ok_iff.1 h
  obtain ⟨ha, -⟩ := Setting.fault?_eq_none_iff.1 hf
  rw [Setting.connection_settle]
  cases v with
  | maxFieldSize n => exact ⟨hs.maxRows, hs.announced, ha, hs.queryTimeout, hs.fetchSize⟩
  | maxRows n =>
    refine ⟨?_, fun _ ↦ rfl, hs.maxFieldSize, hs.queryTimeout, hs.fetchSize⟩
    change (if n = 0 then noRowLimit else n) = noRowLimit ∨
      1 ≤ (if n = 0 then noRowLimit else n) ∧ (if n = 0 then noRowLimit else n) ≤ greatestRowLimit
    by_cases hz : n = 0
    · rw [if_pos hz]
      exact .inl rfl
    · rw [if_neg hz]
      have hpos : (0 : Int) < n.toInt :=
        Int32.lt_iff_toInt_lt.1 (Int32.lt_of_le_of_ne ha.1 (Ne.symm hz))
      exact .inr ⟨Int32.le_iff_toInt_le.2 hpos, ha.2⟩
  | fetchSize n =>
    exact ⟨hs.maxRows, hs.announced, hs.maxFieldSize, hs.queryTimeout,
      ha.imp_right And.left⟩
  | queryTimeout n => exact ⟨hs.maxRows, hs.announced, hs.maxFieldSize, ha, hs.fetchSize⟩
  | _ => exact ⟨hs.maxRows, hs.announced, hs.maxFieldSize, hs.queryTimeout, hs.fetchSize⟩

/-- Changes up to the first that is refused keep the settings within their ranges. -/
theorem inRange_runSetters {fs : List Setter} (hf : ∀ f ∈ fs, ∃ v : Setting, f = v.setter)
    {s : Statement} {c : Context} (hs : s.settings.InRange c.connection) :
    (s.runSetters c fs).statement.settings.InRange (s.runSetters c fs).context.connection :=
  runSetters_keeps
    (R := fun s c s' c' ↦
      s.settings.InRange c.connection → s'.settings.InRange c'.connection)
    (fun _ _ h ↦ h) (fun h₁ h₂ ↦ h₂ ∘ h₁) inRange_set hf s c hs

/-- A call keeps the settings of its statement within their ranges. -/
theorem inRange_perform {s : Statement} {c : Context} (hs : s.settings.InRange c.connection)
    (call : Call) :
    (s.perform c call).statement.settings.InRange (s.perform c call).context.connection := by
  by_cases h : call.settings = []
  · rw [settings_perform h]
    exact hs.later (Connection.packetBudget_of_terms (terms_law.perform s c call))
      (keepsLimit_law.perform s c call).uses
  · rw [perform_settings h]
    refine inRange_runSetters (fun f hf ↦ ?_) hs
    obtain ⟨v, -, hv⟩ := List.mem_map.1 hf
    exact ⟨v, hv.symm⟩

/-- A packet budget that is too large for a 32-bit integer becomes the greatest one. -/
private theorem fieldSize_of_budget (budget : Nat) :
    0 ≤ (Decimal.toInt32? budget).getD Int32.maxValue ∧
      ((Decimal.toInt32? budget).getD Int32.maxValue).toInt ≤ budget := by
  have hleast : Int32.minValue.toInt = -2147483648 := rfl
  have hmost : Int32.maxValue.toInt = 2147483647 := rfl
  unfold Decimal.toInt32?
  split
  · next h =>
    have hn : (Int32.ofInt budget).toInt = budget :=
      Int32.toInt_ofInt_of_le (by omega) (by omega)
    rw [Option.getD_some, Int32.le_iff_toInt_le, hn]
    exact ⟨Int.natCast_nonneg budget, Int.le_refl _⟩
  · next h =>
    rw [Option.getD_none, hmost]
    exact ⟨by decide, by omega⟩

/-- A new statement has its settings within their ranges; its max field size is the packet budget
of the connection as far as it fits. -/
theorem inRange_create {c : Context} {id : Nat} {catalog : Option String} {t : Statement}
    (h : create c id catalog = .ok t) : t.settings.InRange c.connection := by
  unfold create at h
  cases hl : c.lock with
  | error e => simp [hl] at h
  | ok l =>
    rw [hl] at h
    dsimp only at h
    split at h
    · simp at h
    · rw [← Except.ok.inj h, ← Context.connection_lock hl]
      have hnone : ¬(0 : Int32) < noRowLimit := by decide
      have hzero : (0 : Int32) ≤ 0 := by decide
      exact ⟨.inl rfl, fun h ↦ absurd h hnone, fieldSize_of_budget _, hzero, .inr hzero⟩

end Statement

/-- While nobody is at work on the connection, a change only tells it of a row limit. -/
theorem Context.Idle.settle {c : Context} (h : c.Idle) (v : Setting) :
    v.settle c = { c with connection := v.tell c.connection } := by
  have hfree : c.unlock = c := by
    rw [Context.unlock, ← h.locked]
  cases v with
  | maxFieldSize n => exact hfree
  | maxRows n =>
    exact congrArg (fun d : Context ↦ { d with connection := c.connection.announceLimit }) hfree
  | _ => rfl

namespace Session

/-- The settings of all statements are within their ranges. -/
def InRange (s : Session) : Prop :=
  ∀ t, some t ∈ s.statements → t.settings.InRange s.context.connection

/-- A call of the application beside the statements does not change the packet budget. -/
theorem packetBudget_connectionCall (c : Context) (call : ConnectionCall) :
    (connectionCall c call).2.connection.packetBudget = c.connection.packetBudget := by
  cases call with
  | selectCatalog name =>
    unfold connectionCall
    dsimp only
    split
    · next k hk => exact Connection.packetBudget_of_terms (Connection.terms_selectCatalog hk)
    · rfl
  | rollback =>
    unfold connectionCall
    dsimp only
    split <;> rfl
  | execute cmd => exact Connection.packetBudget_of_terms (c.connection.terms_send cmd)
  | _ => rfl

/-- What is done for one statement leaves the settings of the others within their ranges. -/
theorem InRange.others {s : Session} (hs : s.InRange) {k : Connection}
    (hk : k.packetBudget = s.context.connection.packetBudget)
    (hu : s.context.connection.limitsRows = true → k.limitsRows = true) {t : Statement}
    (ht : some t ∈ s.statements) : t.settings.InRange k :=
  (hs t ht).later hk hu

/-- Every operation keeps the settings of all statements within their ranges. -/
theorem inRange_step {s : Session} (hs : s.InRange) (op : Operation) : (s.step op).2.InRange := by
  have uses := Statement.keepsLimit_law
  have terms := Statement.terms_law
  have budget {k : Connection} (h : k.terms = s.context.connection.terms) :=
    Connection.packetBudget_of_terms h
  cases op with
  | make origin setup =>
    rcases s.step_make origin setup with h | ⟨t, fs, ht, hf, h | h⟩
    · rw [h]
      exact hs
    · rw [h]
      intro u hu
      rcases List.mem_append.1 hu with hu | hu
      · exact hs.others (budget (terms.runSetters hf t _)) (uses.runSetters hf t _).uses hu
      · rw [Option.some.inj (List.mem_singleton.1 hu)]
        exact Statement.inRange_runSetters hf (Statement.inRange_create ht)
    · rw [h]
      let o := t.runSetters s.context fs
      have hterms := (terms.close o.statement o.context).trans (terms.runSetters hf t s.context)
      have huses := uses.trans (uses.runSetters hf t s.context) (uses.close o.statement o.context)
      exact fun u hu ↦ hs.others (budget hterms) huses.uses hu
  | call place call =>
    cases ht : s.statement? place with
    | none =>
      have hsame : (s.step (.call place call)).2 = s := by simp [step, ht]
      rw [hsame]
      exact hs
    | some t =>
      rw [step_call_eq ht]
      intro u hu
      rcases List.mem_or_eq_of_mem_set hu with hu | hu
      · exact hs.others (budget (terms.perform t s.context call))
          (uses.perform t s.context call).uses hu
      · rw [Option.some.inj hu]
        exact Statement.inRange_perform
          (hs t (List.mem_of_getElem? (statement?_eq_some.1 ht))) call
  | drop place =>
    have hstep := s.step_stepped (.drop place)
    generalize (s.step (.drop place)).2 = s' at hstep ⊢
    cases hstep with
    | idle => exact hs
    | @dropped _ t ht =>
      intro u hu
      rcases List.mem_or_eq_of_mem_set hu with hu | hu
      · exact hs.others (budget (terms.close t s.context)) (uses.close t s.context).uses hu
      · simp at hu
    | underwent _ f => cases f <;> exact hs
  | connection call =>
    unfold step
    dsimp only
    split
    · exact fun u hu ↦
        hs.others (packetBudget_connectionCall s.context call) (connectionCall_uses call) hu
    · exact hs
  | poison => exact hs
  | dropConnection => exact hs

/-- What comes of a change of a setting: it is refused and nothing changes, or it is made and only
what it names changes. -/
structure Sets (s : Session) (place : Nat) (t : Statement) (v : Setting) : Prop where
  refused : (∃ e, (s.step (.call place (.set v))).1 = .error e) ↔
    t.closed = true ∨ s.context.held = false ∨ ¬v.Allowed t.settings s.context.connection ∨
      v.locks = true ∧ s.context.poisoned = true
  unchanged : ∀ e, (s.step (.call place (.set v))).1 = .error e →
    (s.step (.call place (.set v))).2 = s
  changed : ∀ a, (s.step (.call place (.set v))).1 = .ok a → a = .done ∧
    (s.step (.call place (.set v))).2 =
      { s with
        context := { s.context with connection := v.tell s.context.connection }
        statements := s.statements.set place (some (t.adjust v.apply)) } ∧
    v.ReadsBack (t.adjust v.apply) (s.step (.call place (.set v))).2.context

/-- While nobody is at work on the connection, a statement can be used unless it is closed or the
application has given up the connection. -/
theorem AtRest.unusable_iff {s : Session} (hs : s.AtRest) {t : Statement}
    (ht : some t ∈ s.statements) :
    t.usable s.context ≠ .ok () ↔ t.closed = true ∨ s.context.held = false := by
  unfold Statement.usable Context.alive
  rw [hs.idle.borrowed]
  cases hc : t.closed with
  | true => simp
  | false =>
    rw [(hs.standing t ht).attached hc]
    cases s.context.held <;> simp

/-- A change of a setting in a session at rest is refused without a trace, or made as it says. -/
theorem sets_of_atRest {s : Session} (hs : s.AtRest) {place : Nat} {t : Statement}
    (ht : s.statement? place = some t) (v : Setting) : s.Sets place t v := by
  have hmem := List.mem_of_getElem? (statement?_eq_some.1 ht)
  have hrefused := Setting.setter_refused_iff (v := v) (s := t) (c := s.context)
  rw [hs.unusable_iff hmem, or_assoc] at hrefused
  have hset : t.perform s.context (.set v) =
      (t.runSetters s.context [v.setter]).answer fun _ ↦ .done := rfl
  rw [Statement.runSetters] at hset
  cases hv : v.setter t s.context with
  | error e =>
    rw [hv] at hset hrefused
    have hstep : s.step (.call place (.set v)) = (.error e, s) := step_call_same ht hset
    constructor
    · rw [hstep]
      simpa using hrefused
    · rw [hstep]
      exact fun _ _ ↦ rfl
    · simp [hstep]
  | ok sc =>
    obtain ⟨hu, hf, hs', hc'⟩ := Setting.setter_ok_iff.1 hv
    have hmade : t.perform s.context (.set v) =
        ⟨.ok .done, t.adjust v.apply, v.settle s.context⟩ := by
      rw [hset, hv, ← hs', ← hc']
      rfl
    have hstep := step_call_eq ht (.set v)
    rw [hmade] at hstep
    rw [hv] at hrefused
    constructor
    · rw [hstep]
      simpa using hrefused
    · simp [hstep]
    · intro a ha
      rw [hstep] at ha ⊢
      refine ⟨(Except.ok.inj ha).symm, ?_,
        Setting.readsBack_of_allowed hu (Setting.fault?_eq_none_iff.1 hf).1⟩
      rw [← hs.idle.settle]

/-- Whatever a session does, all settings are within their ranges, and every change of a setting is
refused for one of the listed reasons and then changes nothing, or it is made as it says. -/
theorem settings_in_range (connection : Connection) (ops : List Operation) :
    let s := (start connection).run ops
    (∀ t, some t ∈ s.statements → t.settings.InRange s.context.connection) ∧
      ∀ place t, s.statement? place = some t → ∀ v, s.Sets place t v := by
  have hrange : ((start connection).run ops).InRange := by
    apply run_induction _ (by simp [InRange, start])
    exact fun s op _ hs ↦ inRange_step hs op
  exact ⟨hrange, fun place t ht v ↦ sets_of_atRest (atRest_run connection ops) ht v⟩

/-- A configuration is refused in its midst behind a row limit of a second statement. The fetch size
of the first goes up to its own row limit and no further. -/
theorem settings_in_range_two :
    let k : Connection := { catalog := "main", packetBudget := 100 }
    let ops : List Operation :=
      [.make .plain {}, .call 0 (.set (.maxRows 10)), .make .plain {},
        .call 1 (.configure { maxRows := 20, fetchSize := 30 })]
    let s := (start k).run ops
    let set (n : Int32) : Operation := .call 0 (.set (.fetchSize n))
    ∃ t u, s.statement? 0 = some t ∧ s.statement? 1 = some u ∧
      t.settings = { maxFieldSize := 100, maxRows := 10 } ∧
      u.settings = { maxFieldSize := 100, maxRows := 20 } ∧
      t.settings.InRange s.context.connection ∧ u.settings.InRange s.context.connection ∧
      (∃ e, (s.step (set 11)).1 = .error e) ∧
      (s.step (set 10)).2.statements =
        [some (t.adjust ({ · with fetchSize := 10 })), some u] := by
  intro k ops s set
  obtain ⟨hrange, hsets⟩ := settings_in_range k ops
  have ht : s.statement? 0 = some ((s.statement? 0).get rfl) := (Option.some_get rfl).symm
  have hu : s.statement? 1 = some ((s.statement? 1).get rfl) := (Option.some_get rfl).symm
  have hallowed : ¬Setting.Allowed ((s.statement? 0).get rfl).settings s.context.connection
      (.fetchSize 11) := by decide +kernel
  have hok : (s.step (set 10)).1 = .ok .done := by decide +kernel
  refine ⟨_, _, ht, hu, by decide +kernel, by decide +kernel,
    hrange _ (List.mem_of_getElem? (statement?_eq_some.1 ht)),
    hrange _ (List.mem_of_getElem? (statement?_eq_some.1 hu)),
    (hsets 0 _ ht (.fetchSize 11)).refused.2 (.inr (.inr (.inl hallowed))), ?_⟩
  rw [((hsets 0 _ ht (.fetchSize 10)).changed _ hok).2.1]
  rfl

end Session

end SqlSession
