import SqlSession.Proofs.Context

/-!
# The hooks of a packet

Closing an open packet runs each of its hooks once; a packet that was closed has none left.
Handing a packet on, splitting it and reading it neither lose nor double a hook. The packets
that a connection gives carry hooks with numbers that follow on one another.
-/

namespace SqlSession

namespace Packet

/-- Every response of the packet is open. -/
def Open (p : Packet) : Prop := ∀ r ∈ p.toList, r.closed = false

/-- The packet is open, or its first response was closed and no hook is left. -/
def Sound (p : Packet) : Prop := p.Open ∨ p.head.closed = true ∧ p.hooks = []

theorem Open.sound {p : Packet} (h : p.Open) : p.Sound := .inl h

theorem open_iff {p : Packet} :
    p.Open ↔ p.head.closed = false ∧ ∀ r ∈ p.followOns, r.closed = false :=
  List.forall_mem_cons

/-- A packet stays open when its first response is exchanged for an open one. -/
theorem Open.withHead {p : Packet} (h : p.Open) {r : Response} (hr : r.closed = false) :
    ({ p with head := r } : Packet).Open :=
  open_iff.2 ⟨hr, (open_iff.1 h).2⟩

theorem Open.bind {p : Packet} (h : p.Open) (b : Binding) : (p.bind b).Open :=
  h.withHead (r := { p.head with binding := b }) (open_iff.1 h).1

theorem Open.withoutWarnings {p : Packet} (h : p.Open) : p.withoutWarnings.Open :=
  h.withHead (r := { p.head with warnings := [] }) (open_iff.1 h).1

theorem Open.withoutNext {p : Packet} (h : p.Open) : p.withoutNext.Open :=
  open_iff.2 ⟨(open_iff.1 h).1, by simp [Packet.withoutNext]⟩

theorem Open.next? {p q : Packet} (h : p.Open) (hq : p.next? = some q) : q.Open := by
  intro r hr
  apply h r
  obtain ⟨head, followOns⟩ := p
  cases followOns with
  | nil => simp [Packet.next?] at hq
  | cons a rest =>
    simp only [Packet.next?, Option.some.injEq] at hq
    subst hq
    exact List.mem_cons_of_mem _ hr

@[simp]
theorem hooks_withoutWarnings (p : Packet) : p.withoutWarnings.hooks = p.hooks := by
  simp [withoutWarnings, hooks, toList, List.filterMap_cons]

/-- Splitting the follow-ons off splits the hooks. -/
theorem count_hooks_next? (p : Packet) (h : Hook) :
    p.withoutNext.hooks.count h + (p.next?.toList.flatMap hooks).count h = p.hooks.count h := by
  rw [p.hooks_eq, List.count_append]
  cases p.next? <;> simp

/-- Closing a sound packet runs each of its hooks. -/
theorem count_closing {p : Packet} (hp : p.Sound) (h : Hook) :
    p.closing.count h = p.hooks.count h := by
  rcases hp with hp | ⟨hc, hh⟩
  · rw [closing, release, Response.hooks_releaseChain hp, List.count_reverse]
    rfl
  · rw [hh, closing, release, toList, Response.releaseChain, if_pos hc]
    rfl

/-- A packet that differs from a sound one only in what a reader changes is sound and has the
same hooks. -/
theorem Sound.reading {p : Packet} (hp : p.Sound) {r : Response} (hc : r.closed = p.head.closed)
    (hr : r.release = p.head.release) :
    ({ p with head := r } : Packet).Sound ∧ ({ p with head := r } : Packet).hooks = p.hooks := by
  have hh : ({ p with head := r } : Packet).hooks = p.hooks := by
    simp [hooks, toList, List.filterMap_cons, hr]
  refine ⟨?_, hh⟩
  rcases hp with hp | ⟨hcl, hn⟩
  · exact .inl (hp.withHead (hc.trans (open_iff.1 hp).1))
  · exact .inr ⟨by rw [hc, hcl], by rw [hh, hn]⟩

/-- A closed packet is sound. -/
theorem Sound.close {p : Packet} (hp : p.Sound) : p.close.Sound := by
  unfold Packet.close
  split
  · exact hp
  · exact .inr ⟨rfl, by simp [hooks, toList, Response.shut]⟩

/-- Serving a request leaves a sound packet, and each hook has run or is still in it. -/
theorem Sound.serve {p : Packet} (hp : p.Sound) (q : Request) :
    (p.serve q).packet.Sound ∧ ∀ h,
      ((p.serve q).events.filterMap Event.hook?).count h + (p.serve q).packet.hooks.count h =
        p.hooks.count h := by
  by_cases hq : q = .close
  · obtain ⟨hpacket, hev⟩ := p.serve_close
    rw [hq, hev, hpacket]
    refine ⟨hp.close, fun h ↦ ?_⟩
    have hc := count_closing hp h
    rw [closing] at hc
    rcases hp with hp | ⟨hcl, hn⟩
    · rw [hc, hooks_close (open_iff.1 hp).1]
      simp
    · rw [hc, Packet.close, if_pos hcl, hn]
      rfl
  · obtain ⟨hev, cursor, warnings, hpacket⟩ := p.serve_reading hq
    obtain ⟨hs, hh⟩ := hp.reading (r := { p.head with cursor, warnings }) rfl rfl
    rw [hev, hpacket]
    exact ⟨hs, fun h ↦ by simp [hh]⟩

/-- The hooks with numbers from the given one on. -/
def numbered (hs : List Hook) (n : Nat) : List Hook :=
  (hs.zipIdx n).map fun hn ↦ { hn.1 with serial := hn.2 }

theorem numbered_append (a b : List Hook) (n : Nat) :
    numbered (a ++ b) n = numbered a n ++ numbered b (n + a.length) := by
  simp [numbered, List.zipIdx_append]

/-- The numbers are those from the given one on. -/
theorem serial_numbered (hs : List Hook) (n : Nat) :
    (numbered hs n).map Hook.serial = List.range' n hs.length := by
  induction hs generalizing n with
  | nil => rfl
  | cons h r ih =>
    have hr := ih (n + 1)
    simp only [numbered, List.map_map] at hr ⊢
    simp [List.range'_succ, hr]

theorem numberHooks_eq (l : List Response) (n : Nat) :
    (numberHooks n l).1.filterMap Response.release = numbered (l.filterMap Response.release) n ∧
      (numberHooks n l).2 = n + (l.filterMap Response.release).length := by
  induction l generalizing n with
  | nil => exact ⟨rfl, rfl⟩
  | cons r rest ih =>
    cases h : r.release with
    | none =>
      obtain ⟨h1, h2⟩ := ih n
      simp [numberHooks, Response.number, h, h1, h2]
    | some k =>
      obtain ⟨h1, h2⟩ := ih (n + 1)
      simp [numberHooks, Response.number, h, h1, h2, numbered]
      omega

/-- Issuing a packet numbers its hooks and tells the first number not used. -/
theorem issue_eq (p : Packet) (n : Nat) :
    (p.issue n).1.hooks = numbered p.hooks n ∧ (p.issue n).2 = n + p.hooks.length :=
  numberHooks_eq p.toList n

/-- Numbering closes nothing and opens nothing. -/
theorem closed_numberHooks (l : List Response) (n : Nat) :
    (numberHooks n l).1.map Response.closed = l.map Response.closed := by
  induction l generalizing n with
  | nil => rfl
  | cons r rest ih =>
    cases h : r.release <;> simp [numberHooks, Response.number, h, ih]

theorem Open.issue {p : Packet} (h : p.Open) (n : Nat) : (p.issue n).1.Open := by
  intro r hr
  have hc : r.closed ∈ (numberHooks n p.toList).1.map Response.closed := List.mem_map_of_mem hr
  rw [closed_numberHooks] at hc
  obtain ⟨q, hq, he⟩ := List.mem_map.1 hc
  rw [← he]
  exact h q hq

end Packet

end SqlSession
