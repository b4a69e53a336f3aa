import SqlSession.Proofs.Setter

/-!
# What the result slots do

An advance moves the slots of a statement in one way whatever the mode says; the mode decides
only what is closed and what is kept. Serving a request changes the current result alone, and
a setter no slot at all.
-/

namespace SqlSession.Statement

/-- The packets that an advance in the mode closes, in their order. -/
def retiring (s : Statement) : MoreResults → List Packet
  | .closeCurrent => s.current.toList
  | .keepCurrent => []
  | .closeAll => s.current.toList ++ s.retained

/-- The packets that are kept behind an advance in the mode. -/
def keeping (s : Statement) : MoreResults → List Packet
  | .closeCurrent => s.retained
  | .keepCurrent => s.retained ++ s.current.toList
  | .closeAll => []

/-- What is closed or kept is the current result or was kept before. -/
theorem mem_retiring_keeping {s : Statement} {mode : MoreResults} {p : Packet}
    (h : p ∈ s.retiring mode ++ s.keeping mode) : s.current = some p ∨ p ∈ s.retained := by
  cases mode with
  | closeCurrent => simpa [retiring, keeping] using h
  | keepCurrent => simpa [retiring, keeping, or_comm] using h
  | closeAll => simpa [retiring, keeping] using h

/-- The statement behind an advance in the mode. -/
def advanced (s : Statement) (mode : MoreResults) : Statement :=
  { s with
    current := s.pending.map Packet.withoutNext
    pending := (s.pending.bind Packet.next?).map fun p ↦ p.bind s.binding
    retained := s.keeping mode }

/-- An advance closes what the mode retires and moves the next response up. -/
theorem advance_ok {s : Statement} {c : Context} (h : s.usable c = .ok ()) (mode : MoreResults) :
    s.advance c mode =
      ⟨.ok (slotHasRows (s.advanced mode).current), s.advanced mode,
        c.releaseAll (s.retiring mode)⟩ := by
  unfold advance
  rw [h]
  cases hc : s.current with
  | none =>
    cases mode <;>
      simp [retireCurrent, retireKept, stepForward, holdNext, advanced, retiring, keeping, binding,
        hc, Context.releaseSlot, Context.releaseAll]
  | some p =>
    cases mode <;>
      simp [retireCurrent, retireKept, stepForward, holdNext, emptyCurrent, advanced, retiring,
        keeping, binding, hc, MoreResults.closes, Context.releaseSlot, Context.releaseAll]

/-- An advance of a statement that cannot be used changes nothing. -/
theorem advance_error {s : Statement} {c : Context} {e : SqlError} (h : s.usable c = .error e)
    (mode : MoreResults) : s.advance c mode = ⟨.error e, s, c⟩ := by
  rw [advance, h]

/-- The current result that can be served is the one in its slot. -/
theorem currentRows_ok {s : Statement} {c : Context} {p : Packet}
    (h : s.currentRows c = .ok (some p)) :
    s.usable c = .ok () ∧ s.current = some p ∧ p.head.hasRows = true := by
  unfold currentRows read at h
  cases hu : s.usable c with
  | error e => simp [hu, Except.map] at h
  | ok u =>
    simp only [hu, Except.map, Except.ok.injEq] at h
    split at h
    · next hr =>
      rw [h] at hr
      exact ⟨rfl, h, hr⟩
    · simp at h

/-- A request is served by the current result, or nothing happens. -/
theorem serveCurrent_cases (s : Statement) (c : Context) (q : Packet.Request) :
    ((s.serveCurrent c q).statement = s ∧ (s.serveCurrent c q).context = c) ∨
      ∃ p, s.usable c = .ok () ∧ s.current = some p ∧ p.head.hasRows = true ∧
        (s.serveCurrent c q).statement = { s with current := some (p.serve q).packet } ∧
        (s.serveCurrent c q).context = c.noteAll (p.serve q).events := by
  unfold serveCurrent
  split
  · exact .inl ⟨rfl, rfl⟩
  · exact .inl ⟨rfl, rfl⟩
  · next p hp =>
    obtain ⟨hu, hc, hr⟩ := currentRows_ok hp
    exact .inr ⟨p, hu, hc, hr, rfl, rfl⟩

/-- What a change of a setting can do. -/
inductive Changed (s : Statement) (c : Context) : Setting → Statement → Context → Prop
  /-- A row limit is stored and announced. -/
  | limited {n : Int32} {l : Context} (h0 : 0 ≤ n) (hn : n ≤ greatestRowLimit)
      (hl : c.lock = .ok l) :
    Changed s c (.maxRows n) (s.adjust ({ · with maxRows := if n = 0 then noRowLimit else n }))
      { l with connection := l.connection.announceLimit }.unlock
  /-- Another setting is stored after a look at the connection. -/
  | looked {v : Setting} {t : Settings} {l : Context} (ht : t.maxRows = s.settings.maxRows)
      (hl : c.lock = .ok l) :
    Changed s c v { s with settings := t } l.unlock
  /-- Another setting is stored. -/
  | stored {v : Setting} {t : Settings} (ht : t.maxRows = s.settings.maxRows) :
    Changed s c v { s with settings := t } c

/-- A change that is not refused is one of the listed ones, on a statement that can be used. -/
theorem setter_ok {v : Setting} {s s' : Statement} {c c' : Context}
    (h : v.setter s c = .ok (s', c')) : s.usable c = .ok () ∧ s.Changed c v s' c' := by
  obtain ⟨hu, hf, rfl, rfl⟩ := Setting.setter_ok_iff.1 h
  refine ⟨hu, ?_⟩
  cases v with
  | maxRows n =>
    simp only [Setting.fault?] at hf
    split at hf
    · simp at hf
    · next hn =>
      split at hf
      · simp at hf
      · next hp =>
        have hl : c.lock = .ok { c with locked := true } := if_neg hp
        have hn' := not_or.1 hn
        have hmade : s.Changed c (.maxRows n) _ _ :=
          .limited (Int32.not_lt.1 hn'.1) (Int32.not_lt.1 hn'.2) hl
        exact hmade
  | maxFieldSize n =>
    simp only [Setting.fault?] at hf
    split at hf
    · simp at hf
    · split at hf
      · simp at hf
      · next hp =>
        have hl : c.lock = .ok { c with locked := true } := if_neg hp
        have hmade : s.Changed c (.maxFieldSize n) _ _ :=
          .looked (t := { s.settings with maxFieldSize := n }) rfl hl
        exact hmade
  | _ => exact .stored rfl

end SqlSession.Statement
