import SqlSession.Proofs.Hooks
import SqlSession.Proofs.RowCursor

/-!
# Closing a chain of results

Closing the first response of a chain runs all hooks of the chain, the last one first, and answers
for the first response alone. What is left has nothing to read and nothing to run: whatever its
holder does with it, it stays closed, refuses to be read and closes again without effect.
-/

namespace SqlSession

/-- What closing an open response in passing brings about: its hook runs, and a failure is
logged. -/
def Response.inPassing (r : Response) : List Event :=
  match r.release with
  | some h => .released h :: (h.failure.map fun e ↦ .logged (Log.ignoredRelease e)).toList
  | none => []

/-- Responses that nobody waits for are closed one by one, the last one first. -/
theorem Response.quietly_releaseChain {l : List Response} (h : ∀ r ∈ l, r.closed = false) :
    (releaseChain l).quietly = l.reverse.flatMap inPassing := by
  induction l with
  | nil => rfl
  | cons r t ih =>
    obtain ⟨hr, ht⟩ := List.forall_mem_cons.1 h
    rw [List.reverse_cons, List.flatMap_append, ← ih ht, List.flatMap_singleton, releaseChain, hr]
    generalize (releaseChain t).quietly = es
    cases hhook : r.release with
    | none => simp [Release.quietly, inPassing, hhook]
    | some hook => cases hf : hook.failure <;> simp [Release.quietly, inPassing, hhook, hf]

namespace Packet

variable {p q : Packet}

/-- Closing a chain closes the follow-ons in passing, and then the first response, for whose hook
it answers. -/
theorem Open.release_eq (h : p.Open) :
    p.release = ⟨p.followOns.reverse.flatMap Response.inPassing ++
      p.head.release.toList.map Event.released, p.head.release.bind Hook.failure⟩ := by
  obtain ⟨hhead, hrest⟩ := open_iff.1 h
  rw [release, toList, Response.releaseChain, hhead, Response.quietly_releaseChain hrest]
  cases p.head.release <;> simp

/-- What the holder of a packet makes of it: the packet is asked, bound, or parted from its
follow-ons, in any order and as often as one likes. -/
inductive Later (p : Packet) : Packet → Prop
  | now : Later p p
  | asked {q : Packet} (h : Later p q) (r : Request) : Later p (q.serve r).packet
  | bound {q : Packet} (h : Later p q) (b : Binding) : Later p (q.bind b)
  | parted {q : Packet} (h : Later p q) : Later p q.withoutNext

/-- The packet is what closing leaves of another one: only the count and the key are still told. -/
structure Spent (q p : Packet) : Prop where
  closed : q.head.closed = true
  rows : q.head.rows = none
  cursor : q.head.cursor = none
  followOns : q.followOns = []
  hooks : q.hooks = []
  updateCount : q.head.updateCount = p.head.updateCount
  generatedKey : q.head.generatedKey = p.head.generatedKey

/-- The packet closes without effect and refuses to be read. -/
structure Inert (q : Packet) : Prop where
  close : q.serve .close = ⟨.ok .done, q, []⟩
  next : q.serve .next = ⟨.error (.illegalState .resultClosed), q, []⟩
  bytes : ∀ c, q.serve (.bytes c) = ⟨.error (.illegalState .resultClosed), q, []⟩
  text : ∀ c, q.serve (.text c) = ⟨.error (.illegalState .resultClosed), q, []⟩
  integer : ∀ c, q.serve (.integer c) = ⟨.error (.illegalState .resultClosed), q, []⟩

/-- A closed packet is inert. -/
theorem inert_of_closed (h : q.head.closed = true) : q.Inert := by
  have hopen : q.head.ensureOpen = .error (.illegalState .resultClosed) := by
    rw [Response.ensureOpen, h]
    rfl
  have hcell (c : Nat) : q.head.cell c = .error (.illegalState .resultClosed) := by
    rw [Response.cell, hopen]
    rfl
  have hrelease : q.release = {} := by
    rw [release, toList, Response.releaseChain, h]
    rfl
  constructor
  case close =>
    rw [serve, hrelease, Packet.close, h]
    rfl
  case next =>
    rw [serve, Response.advance, hopen]
    rfl
  case bytes =>
    intro c
    rw [serve, hcell]
    rfl
  case text =>
    intro c
    rw [serve, Response.cellText, hcell]
    rfl
  case integer =>
    intro c
    rw [serve, Response.cellInt, Response.cellText, hcell]
    rfl

namespace Spent

theorem inert (h : q.Spent p) : q.Inert := inert_of_closed h.closed

/-- No request brings anything back. -/
theorem served (h : q.Spent p) (r : Request) : (q.serve r).packet.Spent p := by
  by_cases hclose : r = .close
  · rw [hclose, h.inert.close]
    exact h
  by_cases hnext : r = .next
  · rw [hnext, h.inert.next]
    exact h
  rcases Moved.serve_still q hnext hclose with heq | ⟨-, heq⟩
  · rw [heq]
    exact h
  · rw [heq]
    exact { h with }

theorem bound (h : q.Spent p) (b : Binding) : (q.bind b).Spent p :=
  { h with hooks := (hooks_bind q b).trans h.hooks }

theorem parted (h : q.Spent p) : q.withoutNext.Spent p := by
  have heq : q.withoutNext = q := by rw [withoutNext, ← h.followOns]
  rw [heq]
  exact h

/-- Nothing that its holder does with a packet brings anything back. -/
theorem later {q' : Packet} (h : q.Spent p) (hl : q.Later q') : q'.Spent p := by
  induction hl with
  | now => exact h
  | asked _ r ih => exact ih.served r
  | bound _ b ih => exact ih.bound b
  | parted _ ih => exact ih.parted

end Spent

/-- Closing an open packet spends it. -/
theorem spent_close (h : p.head.closed = false) : p.close.Spent p := by
  have hclose : p.close = ⟨p.head.shut, []⟩ := by
    rw [close, h]
    rfl
  have hhooks := hooks_close h
  rw [hclose] at hhooks ⊢
  exact ⟨rfl, rfl, rfl, rfl, hhooks, rfl, rfl⟩

/-- Closing a chain of open responses runs each of its hooks once, the last one first, answers for
the hook of the first response alone, and leaves a packet that is spent for good. -/
theorem chain_closed (h : p.Open) :
    (p.serve .close).events.filterMap Event.hook? = p.hooks.reverse ∧
    (p.serve .close).events = p.followOns.reverse.flatMap Response.inPassing ++
      p.head.release.toList.map Event.released ∧
    (p.serve .close).reply = (match p.head.release.bind Hook.failure with
      | some e => .error e
      | none => .ok .done) ∧
    ∀ q, (p.serve .close).packet.Later q → q.Spent p ∧ q.Inert := by
  obtain ⟨hpacket, hevents⟩ := p.serve_close
  have hrelease := h.release_eq
  refine ⟨?_, ?_, ?_, fun q hq ↦ ?_⟩
  · rw [hevents, release, Response.hooks_releaseChain h]
    rfl
  · rw [hevents, hrelease]
  · rw [serve, hrelease]
    cases p.head.release.bind Hook.failure <;> rfl
  · have hspent : p.close.Spent p := spent_close (open_iff.1 h).1
    rw [hpacket] at hq
    exact ⟨hspent.later hq, (hspent.later hq).inert⟩

/-- The hooks of the first and the second response fail, and the third one's does not. -/
theorem chain_closed_failing :
    let lost : SqlError := .structured (.ascii '0' '8' 'S' '0' '1') 2013 "gone"
    let head : Response :=
      { Response.ofUpdate 3 42 with release := some { tag := "head", failure := some .notAQuery } }
    let middle : Response :=
      { Response.ofKey 7 with release := some { tag := "middle", failure := some lost } }
    let tail : Response := { Response.ofUpdate 1 (-1) with release := some { tag := "tail" } }
    let p : Packet := ⟨head, [middle, tail]⟩
    p.Open ∧
      (p.serve .close).events.filterMap (fun e ↦ e.hook?.map Hook.tag) =
        ["tail", "middle", "head"] ∧
      (p.serve .close).reply = .error .notAQuery ∧
      ∀ q, (p.serve .close).packet.Later q → q.Spent p ∧ q.Inert := by
  intro lost head middle tail p
  have hopen : p.Open := open_iff.2 ⟨rfl, by decide⟩
  obtain ⟨-, hevents, hreply, hlater⟩ := chain_closed hopen
  refine ⟨hopen, ?_, hreply, hlater⟩
  rw [hevents]
  rfl

end Packet

end SqlSession
