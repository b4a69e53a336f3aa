import SqlSession.Connection.Context

/-!
# What happenings leave alone

Running hooks and writing log lines changes the journal, and through the effects of hooks who
holds the connection and whether its mutex is poisoned. The connection itself, the metrics and
the lock stay as they are.
-/

namespace SqlSession

/-- The hooks that run when the packet is closed, in their order. -/
def Packet.closing (p : Packet) : List Hook := p.release.events.filterMap Event.hook?

namespace Context

variable (c : Context)

/-- An event changes the journal, the holder and the poisoning only. -/
theorem note_eq (e : Event) : ∃ held poisoned,
    c.note e = { c with held, poisoned, journal := c.journal ++ [⟨e, c.locked⟩] } := by
  unfold note
  dsimp only
  split
  · next f _ =>
    cases f with
    | poison => exact ⟨_, _, rfl⟩
    | dropConnection => exact ⟨_, _, rfl⟩
  · exact ⟨_, _, rfl⟩

/-- Events change the journal, the holder and the poisoning only; the journal gets all of them
with the state of the lock. -/
theorem noteAll_eq (es : List Event) : ∃ held poisoned,
    c.noteAll es =
      { c with held, poisoned, journal := c.journal ++ es.map fun e ↦ ⟨e, c.locked⟩ } := by
  induction es generalizing c with
  | nil => exact ⟨c.held, c.poisoned, by simp [noteAll]⟩
  | cons e r ih =>
    obtain ⟨held, poisoned, he⟩ := c.note_eq e
    obtain ⟨held', poisoned', hr⟩ := ih (c.note e)
    refine ⟨held', poisoned', ?_⟩
    rw [noteAll, List.foldl_cons, ← noteAll, hr, he]
    simp

/-- Closing the packet in a slot notes its events. -/
theorem releaseSlot_eq (slot : Option Packet) :
    c.releaseSlot slot = c.noteAll (slot.toList.flatMap fun p ↦ p.release.quietly) := by
  cases slot with
  | none => rfl
  | some p => simp [releaseSlot, release]

/-- Closing packets one after the other notes the events of all of them. -/
theorem releaseAll_eq (ps : List Packet) :
    c.releaseAll ps = c.noteAll (ps.flatMap fun p ↦ p.release.quietly) := by
  induction ps generalizing c with
  | nil => rfl
  | cons p r ih =>
    rw [releaseAll, List.foldl_cons, ← releaseAll, ih, List.flatMap_cons, noteAll_append]
    rfl

@[simp]
theorem connection_noteAll (es : List Event) : (c.noteAll es).connection = c.connection := by
  obtain ⟨_, _, h⟩ := c.noteAll_eq es
  rw [h]

@[simp]
theorem connection_log (rs : List Log.Record) : (c.log rs).connection = c.connection :=
  c.connection_noteAll _

@[simp]
theorem connection_release (p : Packet) : (c.release p).connection = c.connection :=
  c.connection_noteAll _

@[simp]
theorem connection_releaseSlot (slot : Option Packet) :
    (c.releaseSlot slot).connection = c.connection := by
  rw [releaseSlot_eq, connection_noteAll]

@[simp]
theorem connection_releaseAll (ps : List Packet) :
    (c.releaseAll ps).connection = c.connection := by
  rw [releaseAll_eq, connection_noteAll]

@[simp]
theorem connection_count (scope : Metrics.Scope) (f : Metrics → Metrics) :
    (c.count scope f).connection = c.connection := by
  cases scope <;> rfl

@[simp]
theorem connection_unlock : c.unlock.connection = c.connection := rfl

/-- Taking the mutex holds it and changes nothing else. -/
theorem lock_ok {c l : Context} (h : c.lock = .ok l) : l = { c with locked := true } := by
  unfold lock at h
  split at h
  · simp at h
  · exact (Except.ok.inj h).symm

theorem connection_lock {c l : Context} (h : c.lock = .ok l) : l.connection = c.connection := by
  rw [lock_ok h]

@[simp]
theorem released_release (p : Packet) : (c.release p).released = c.released ++ p.closing := by
  rw [release, released_noteAll, Release.hooks_quietly, Packet.closing]

@[simp]
theorem released_releaseSlot (slot : Option Packet) :
    (c.releaseSlot slot).released = c.released ++ slot.toList.flatMap Packet.closing := by
  cases slot with
  | none => simp [releaseSlot]
  | some p => simp [releaseSlot]

@[simp]
theorem released_releaseAll (ps : List Packet) :
    (c.releaseAll ps).released = c.released ++ ps.flatMap Packet.closing := by
  induction ps generalizing c with
  | nil => simp [releaseAll]
  | cons p r ih =>
    rw [releaseAll, List.foldl_cons, ← releaseAll, ih]
    simp

@[simp]
theorem released_count (scope : Metrics.Scope) (f : Metrics → Metrics) :
    (c.count scope f).released = c.released := by
  cases scope <;> rfl

@[simp]
theorem released_unlock : c.unlock.released = c.released := rfl

theorem released_lock {c l : Context} (h : c.lock = .ok l) : l.released = c.released := by
  rw [lock_ok h]
  rfl

end Context

attribute [simp] Context.released_log

end SqlSession
