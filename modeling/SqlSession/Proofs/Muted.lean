import SqlSession.Proofs.Attempt
import SqlSession.Session.Basic

/-!
# States without their suppressed failures

`muted` takes from a packet, a connection, or a whole session the errors that release hooks end
with, whether rollbacks are refused, and the log. What closes packets and what uses a connection
commutes with it: no error of a hook decides what happens next.
-/

namespace SqlSession

/-- What a function does not change is the same of two values that it makes the same. -/
theorem eq_of_map_eq {σ α : Type} {f : σ → α} {g : σ → σ} {x y : σ} (h : g x = g y)
    (hf : ∀ x, f (g x) = f x) : f x = f y := by
  rw [← hf x, h, hf]

/-- The hook without the error that it ends with. -/
def Hook.muted (h : Hook) : Hook := { h with failure := none }

namespace Response

/-- The response with its hook, if it has one, muted. -/
def muted (r : Response) : Response := { r with release := r.release.map Hook.muted }

theorem muted_number (n : Nat) (r : Response) :
    r.muted.number n = ((r.number n).1.muted, (r.number n).2) := by
  obtain ⟨_, _, _, _, _, _, _, release⟩ := r
  cases release <;> rfl

end Response

/-- What is left of an event without failures and the log: the run of a hook. -/
def Event.muted? : Event → Option Event
  | released h => some (.released h.muted)
  | logged _ => none

/-- Only the log tells that nobody waited for a failure. -/
theorem Release.muted_quietly (r : Release) :
    r.quietly.filterMap Event.muted? = r.events.filterMap Event.muted? := by
  unfold quietly
  split <;> simp [Event.muted?]

/-- Muted responses close without a failure, and their hooks run in the same order. -/
theorem Response.releaseChain_muted (l : List Response) :
    releaseChain (l.map Response.muted) =
      ⟨(releaseChain l).events.filterMap Event.muted?, none⟩ := by
  induction l with
  | nil => rfl
  | cons r rest ih =>
    -- What fails further down the chain is logged on the way up, and only that goes.
    have hinner : (releaseChain (rest.map Response.muted)).quietly =
        (releaseChain rest).quietly.filterMap Event.muted? := by
      rw [ih, Release.muted_quietly]
      rfl
    rw [List.map_cons, releaseChain, releaseChain, hinner]
    change (if r.closed = true then _ else _) = _
    cases r.closed with
    | true => rfl
    | false =>
      unfold muted
      cases r.release <;> simp [Event.muted?, Hook.muted]

namespace Packet

/-- The packet with its hooks muted. -/
def muted (p : Packet) : Packet := ⟨p.head.muted, p.followOns.map Response.muted⟩

theorem muted_next? (p : Packet) : p.next?.map muted = p.muted.next? := by
  obtain ⟨r, l⟩ := p
  cases l <;> rfl

theorem muted_next?_bind (p : Packet) (b : Binding) :
    (p.next?.map fun q ↦ q.bind b).map muted = p.muted.next?.map fun q ↦ q.bind b := by
  rw [← muted_next?, Option.map_map, Option.map_map]
  rfl

theorem muted_numberHooks (l : List Response) (n : Nat) :
    numberHooks n (l.map Response.muted) =
      ((numberHooks n l).1.map Response.muted, (numberHooks n l).2) := by
  induction l generalizing n with
  | nil => rfl
  | cons r rest ih => simp [numberHooks, Response.muted_number, ih]

theorem muted_issue (p : Packet) (n : Nat) :
    p.muted.issue n = ((p.issue n).1.muted, (p.issue n).2) := by
  simp [issue, muted, Response.muted_number, muted_numberHooks]

theorem muted_close (p : Packet) : p.close.muted = p.muted.close := by
  unfold close
  change _ = if p.head.closed = true then _ else _
  split <;> rfl

/-- A muted packet closes without a failure, and its hooks run in the same order. -/
theorem release_muted (p : Packet) :
    p.muted.release = ⟨p.release.events.filterMap Event.muted?, none⟩ :=
  Response.releaseChain_muted p.toList

end Packet

/-- The rule with its packets muted. -/
def Rule.muted (r : Rule) : Rule := { r with answer := fun sql ↦ (r.answer sql).map Packet.muted }

namespace Connection

/-- The connection whose hooks and rollbacks do not fail. -/
def muted (k : Connection) : Connection :=
  { k with failRollback := false, rules := k.rules.map Rule.muted }

theorem muted_answer (k : Connection) (sql : String) :
    k.muted.answer sql = (k.answer sql).map Packet.muted := by
  have hfind : k.muted.rules.find? (fun r ↦ Text.containsText r.pattern sql) =
      (k.rules.find? fun r ↦ Text.containsText r.pattern sql).map Rule.muted :=
    List.find?_map
  unfold answer
  rw [hfind]
  cases k.rules.find? fun r ↦ Text.containsText r.pattern sql with
  | some r => rfl
  | none =>
    have hdefault : (defaultAnswer sql).muted = defaultAnswer sql := by
      unfold defaultAnswer
      split <;> rfl
    rw [Option.map_none]
    dsimp only [Except.map]
    rw [hdefault]

/-- A muted connection records the same commands and gives the same packets but muted. -/
theorem muted_send (k : Connection) (cmd : Command) :
    k.muted.send cmd = ((k.send cmd).1.map Packet.muted, (k.send cmd).2.muted) := by
  unfold send
  rw [muted_answer]
  change (if k.closed = true then _ else _) = _
  split
  · rfl
  · cases k.answer cmd.sql with
    | error e => rfl
    | ok p =>
      dsimp only [Except.map]
      rw [show k.muted.issued = k.issued from rfl, Packet.muted_issue]
      rfl

theorem muted_selectCatalog (k : Connection) (name : String) :
    k.muted.selectCatalog name = (k.selectCatalog name).map Connection.muted := by
  unfold selectCatalog
  change (if k.missingCatalog = some name then _ else _) = _
  split <;> rfl

end Connection

/-- What is left of an entry of the journal without failures and the log. -/
def Entry.muted? (e : Entry) : Option Entry := e.event.muted?.map fun f ↦ ⟨f, e.locked⟩

namespace Context

/-- The surroundings with a muted connection and the runs of hooks alone in their journal. -/
def muted (c : Context) : Context :=
  { c with connection := c.connection.muted, journal := c.journal.filterMap Entry.muted? }

theorem muted_undergo (c : Context) (f : Hook.Effect) :
    (c.undergo f).muted = c.muted.undergo f := by
  cases f <;> rfl

theorem muted_note (c : Context) (e : Event) :
    (c.note e).muted = c.muted.noteAll e.muted?.toList := by
  have hjournal : ({ c with journal := c.journal ++ [⟨e, c.locked⟩] } : Context).muted =
      { c.muted with
        journal := c.muted.journal ++ (e.muted?.map fun f ↦ ⟨f, c.locked⟩).toList } := by
    unfold muted
    cases e <;> simp [Entry.muted?, Event.muted?]
  unfold note
  dsimp only
  cases e with
  | logged r =>
    rw [show (Event.logged r).hook?.bind Hook.effect = none from rfl]
    refine hjournal.trans ?_
    simp [Event.muted?, noteAll]
  | released h =>
    rw [show (Event.released h).hook?.bind Hook.effect = h.effect from rfl]
    have hnote : c.muted.noteAll (Event.released h).muted?.toList =
        c.muted.note (.released h.muted) := rfl
    have heffect : (Event.released h.muted).hook?.bind Hook.effect = h.effect := rfl
    rw [hnote, note, heffect]
    cases h.effect with
    | none => exact hjournal
    | some f => exact (muted_undergo _ f).trans (congrArg (·.undergo f) hjournal)

/-- Events leave muted surroundings to their hooks alone. -/
theorem muted_noteAll (c : Context) (es : List Event) :
    (c.noteAll es).muted = c.muted.noteAll (es.filterMap Event.muted?) := by
  induction es generalizing c with
  | nil => rfl
  | cons e rest ih =>
    rw [noteAll, List.foldl_cons, ← noteAll, ih, muted_note, ← noteAll_append]
    congr 1
    cases he : e.muted? <;> simp [he]

/-- The log is not there any more. -/
@[simp]
theorem muted_log (c : Context) (rs : List Log.Record) : (c.log rs).muted = c.muted := by
  have hnone : (rs.map Event.logged).filterMap Event.muted? = [] := by
    rw [List.filterMap_map, List.filterMap_eq_nil_iff]
    exact fun _ _ ↦ rfl
  rw [log, muted_noteAll, hnone]
  rfl

@[simp]
theorem muted_release (c : Context) (p : Packet) :
    (c.release p).muted = c.muted.release p.muted := by
  rw [release, muted_noteAll, Release.muted_quietly, release, Packet.release_muted]
  rfl

@[simp]
theorem muted_releaseSlot (c : Context) (slot : Option Packet) :
    (c.releaseSlot slot).muted = c.muted.releaseSlot (slot.map Packet.muted) := by
  cases slot with
  | none => rfl
  | some p => exact c.muted_release p

@[simp]
theorem muted_releaseAll (c : Context) (ps : List Packet) :
    (c.releaseAll ps).muted = c.muted.releaseAll (ps.map Packet.muted) := by
  induction ps generalizing c with
  | nil => rfl
  | cons p rest ih =>
    rw [releaseAll, List.foldl_cons, ← releaseAll, ih, muted_release]
    rfl

@[simp]
theorem muted_count (c : Context) (scope : Metrics.Scope) (f : Metrics → Metrics) :
    (c.count scope f).muted = c.muted.count scope f := by
  cases scope <;> rfl

@[simp]
theorem muted_unlock (c : Context) : c.unlock.muted = c.muted.unlock := rfl

/-- Muted surroundings send the same commands and get the same packets but muted. -/
theorem muted_send (c : Context) (cmd : Command) :
    c.muted.send cmd = ((c.send cmd).1.map Packet.muted, (c.send cmd).2.muted) := by
  unfold send
  dsimp only
  rw [show c.muted.connection = c.connection.muted from rfl, Connection.muted_send]
  rfl

end Context

namespace Statement

/-- The statement with its results muted. -/
def muted (s : Statement) : Statement :=
  { s with
    current := s.current.map Packet.muted
    pending := s.pending.map Packet.muted
    retained := s.retained.map Packet.muted }

@[simp]
theorem muted_present (s : Statement) (p : Packet) :
    (s.present p).muted = s.muted.present p.muted := by
  unfold muted present
  dsimp only
  rw [Packet.muted_next?_bind]
  rfl

end Statement

end SqlSession
