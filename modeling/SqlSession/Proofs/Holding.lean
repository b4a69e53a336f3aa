import SqlSession.Proofs.SessionSteps

/-!
# Where hooks are held

A statement holds a hook in one of its slots: in the current result, in the pending one with
what follows it, or in one of those that it keeps. A hook that is counted once among all that a
session holds is in one slot of one statement only.
-/

namespace SqlSession

namespace Statement

theorem count_hooks (s : Statement) (h : Hook) :
    s.hooks.count h = (s.current.toList.flatMap Packet.hooks).count h +
      (s.pending.toList.flatMap Packet.hooks).count h +
        (s.retained.flatMap Packet.hooks).count h := by
  simp only [hooks, List.flatMap_append, List.count_append]

/-- Where a statement can hold a result. -/
inductive Slot where
  | current
  /-- With all results that follow it. -/
  | pending
  | retained (index : Nat)
  deriving DecidableEq

/-- The packet in a slot. -/
def inSlot? (s : Statement) : Slot → Option Packet
  | .current => s.current
  | .pending => s.pending
  | .retained index => s.retained[index]?

/-- What occurs once in lists that are put together occurs in one of them only, and there once. -/
private theorem only_one {α : Type} {l : List α} {f : α → List Hook} {h : Hook}
    (hc : (l.flatMap f).count h = 1) {i : Nat} {x : α} (hx : l[i]? = some x) (hf : h ∈ f x) :
    (f x).count h = 1 ∧ ∀ j y, l[j]? = some y → h ∈ f y → j = i := by
  induction l generalizing i with
  | nil => simp at hx
  | cons a rest ih =>
    rw [List.flatMap_cons, List.count_append] at hc
    have inRest {j : Nat} {y : α} (hy : rest[j]? = some y) (hm : h ∈ f y) :
        0 < (rest.flatMap f).count h :=
      List.count_pos_iff.2 (List.mem_flatMap.2 ⟨y, List.mem_of_getElem? hy, hm⟩)
    cases i with
    | zero =>
      rw [List.getElem?_cons_zero, Option.some.injEq] at hx
      rw [hx] at hc
      have hpos := List.count_pos_iff.2 hf
      refine ⟨by omega, ?_⟩
      intro j y hy hm
      cases j with
      | zero => rfl
      | succ j =>
        have := inRest (by simpa using hy) hm
        omega
    | succ i =>
      have hx' : rest[i]? = some x := by simpa using hx
      have hpos := inRest hx' hf
      obtain ⟨hone, honly⟩ := ih (by omega) hx'
      refine ⟨hone, ?_⟩
      intro j y hy hm
      cases j with
      | zero =>
        rw [List.getElem?_cons_zero, Option.some.injEq] at hy
        rw [hy] at hc
        have := List.count_pos_iff.2 hm
        omega
      | succ j => rw [honly j y (by simpa using hy) hm]

/-- The hooks of a slot, with those of all kept results for each of them. -/
private def hooksAt (s : Statement) : Slot → List Hook
  | .current => s.current.toList.flatMap Packet.hooks
  | .pending => s.pending.toList.flatMap Packet.hooks
  | .retained _ => s.retained.flatMap Packet.hooks

private theorem mem_hooksAt {s : Statement} {h : Hook} {slot : Slot} {p : Packet}
    (hs : s.inSlot? slot = some p) (hp : h ∈ p.hooks) : h ∈ s.hooksAt slot := by
  cases slot with
  | current => exact List.mem_flatMap.2 ⟨p, Option.mem_toList.2 hs, hp⟩
  | pending => exact List.mem_flatMap.2 ⟨p, Option.mem_toList.2 hs, hp⟩
  | retained index => exact List.mem_flatMap.2 ⟨p, List.mem_of_getElem? hs, hp⟩

/-- A statement holds the hooks of the packets in its slots. -/
theorem mem_hooks_iff {s : Statement} {h : Hook} :
    h ∈ s.hooks ↔ ∃ slot p, s.inSlot? slot = some p ∧ h ∈ p.hooks := by
  constructor
  · intro hh
    obtain ⟨p, hp, hm⟩ := List.mem_flatMap.1 hh
    rcases List.mem_append.1 hp with hp | hp
    · rcases List.mem_append.1 hp with hp | hp
      · exact ⟨.current, p, Option.mem_toList.1 hp, hm⟩
      · exact ⟨.pending, p, Option.mem_toList.1 hp, hm⟩
    · obtain ⟨index, hi⟩ := List.mem_iff_getElem?.1 hp
      exact ⟨.retained index, p, hi, hm⟩
  · rintro ⟨slot, p, hs, hp⟩
    have hm := mem_hooksAt hs hp
    rw [hooks, List.flatMap_append, List.flatMap_append]
    cases slot with
    | current => exact List.mem_append_left _ (List.mem_append_left _ hm)
    | pending => exact List.mem_append_left _ (List.mem_append_right _ hm)
    | retained index => exact List.mem_append_right _ hm

/-- A hook that a statement holds once is in one of its slots only. -/
theorem slot_unique {s : Statement} {h : Hook} (hc : s.hooks.count h = 1) {a b : Slot}
    {p q : Packet} (ha : s.inSlot? a = some p) (hp : h ∈ p.hooks) (hb : s.inSlot? b = some q)
    (hq : h ∈ q.hooks) : a = b := by
  rw [count_hooks] at hc
  have hpa := List.count_pos_iff.2 (mem_hooksAt ha hp)
  have hpb := List.count_pos_iff.2 (mem_hooksAt hb hq)
  -- two slots of different sorts would hold it twice
  cases a with
  | current =>
    cases b with
    | current => rfl
    | pending => simp only [hooksAt] at hpa hpb; omega
    | retained j => simp only [hooksAt] at hpa hpb; omega
  | pending =>
    cases b with
    | current => simp only [hooksAt] at hpa hpb; omega
    | pending => rfl
    | retained j => simp only [hooksAt] at hpa hpb; omega
  | retained i =>
    cases b with
    | current => simp only [hooksAt] at hpa hpb; omega
    | pending => simp only [hooksAt] at hpa hpb; omega
    | retained j =>
      simp only [hooksAt] at hpa
      rw [(only_one (by omega) ha hp).2 j q hb hq]

end Statement

namespace Session

/-- A statement of the session holds the hook in a slot. -/
def Holds (s : Session) (place : Nat) (slot : Statement.Slot) (h : Hook) : Prop :=
  ∃ t p, s.statement? place = some t ∧ t.inSlot? slot = some p ∧ h ∈ p.hooks

/-- A hook that is held once is in one slot of one statement. -/
theorem holds_unique {s : Session} {h : Hook} (hc : s.hooks.count h = 1) :
    ∃ place slot, s.Holds place slot h ∧
      ∀ place' slot', s.Holds place' slot' h → place' = place ∧ slot' = slot := by
  have hm : h ∈ s.hooks := by
    rw [← List.count_pos_iff, hc]
    exact Nat.one_pos
  obtain ⟨o, ho, hin⟩ := List.mem_flatMap.1 hm
  obtain ⟨place, hplace⟩ := List.mem_iff_getElem?.1 ho
  obtain ⟨hone, honly⟩ := Statement.only_one hc hplace hin
  cases o with
  | none => simp at hin
  | some t =>
    simp only [Option.toList_some, List.flatMap_cons, List.flatMap_nil, List.append_nil]
      at hin hone
    obtain ⟨slot, p, hslot, hp⟩ := Statement.mem_hooks_iff.1 hin
    refine ⟨place, slot, ⟨t, p, statement?_eq_some.2 hplace, hslot, hp⟩, ?_⟩
    rintro place' slot' ⟨t', p', ht', hslot', hp'⟩
    have hin' : h ∈ t'.hooks := Statement.mem_hooks_iff.2 ⟨slot', p', hslot', hp'⟩
    have heq := honly place' (some t') (statement?_eq_some.1 ht') (by simpa using hin')
    rw [heq, statement?_eq_some, hplace, Option.some.injEq, Option.some.injEq] at ht'
    rw [← ht'] at hslot'
    exact ⟨heq, Statement.slot_unique hone hslot' hp' hslot hp⟩

end Session

end SqlSession
