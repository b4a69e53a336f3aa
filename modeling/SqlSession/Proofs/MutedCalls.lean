import SqlSession.Proofs.MutedExecutions
import SqlSession.Proofs.SettingCalls

/-!
# Calls whose releases may fail

Two statements that are the same but for the failures of release hooks and rollbacks stay so through
every call. They answer the same too, but for a call that closes a result itself and so waits for
its failure.
-/

namespace SqlSession

namespace Packet

theorem muted_advance (r : Response) :
    r.muted.advance = r.advance.map fun x ↦ (x.1, x.2.muted) := by
  unfold Response.advance Response.ensureOpen
  change (if r.closed = true then _ else _ : Except SqlError Unit).map _ = _
  split <;> rfl

/-- A muted packet is served like the packet, and replies the same unless it is closed. -/
theorem muted_serve (p : Packet) (q : Request) :
    (p.muted.serve q).packet = (p.serve q).packet.muted ∧
      (p.muted.serve q).events = (p.serve q).events.filterMap Event.muted? ∧
        (q ≠ .close → (p.muted.serve q).reply = (p.serve q).reply) := by
  cases q with
  | next =>
    have hnext : p.muted.head.advance = p.head.advance.map fun x ↦ (x.1, x.2.muted) :=
      muted_advance p.head
    unfold serve
    dsimp only
    rw [hnext]
    cases p.head.advance <;> exact ⟨rfl, rfl, fun _ ↦ rfl⟩
  | close =>
    unfold serve
    dsimp only
    rw [release_muted, ← muted_close]
    refine ⟨?_, ?_, fun hne ↦ absurd rfl hne⟩ <;> cases p.release.failure <;> rfl
  | _ => exact ⟨rfl, rfl, fun _ ↦ rfl⟩

end Packet

/-- The answer with its packets muted. -/
def Answer.muted : Answer → Answer
  | .packet p => .packet p.muted
  | .result slot => .result (slot.map Packet.muted)
  | a => a

/-- What a call that is a single execution answers, it answers for the muted packet muted. -/
theorem Call.muted_answerOf (call : Call) (p : Packet) :
    (call.answerOf p).muted = call.answerOf p.muted := by
  cases call <;> rfl

/-- An outcome can be muted before its value is made an answer. -/
theorem Outcome.answer_muted {α : Type} {f : α → α} {g : α → Answer} {o : Outcome α}
    (h : ∀ a, (g a).muted = g (f a)) :
    (o.muted f).answer g = (o.answer g).muted Answer.muted := by
  unfold Outcome.answer Outcome.muted
  cases o.result <;> simp [Except.map, h]

theorem Setting.muted_setter (v : Setting) (s : Statement) (c : Context) :
    v.setter s.muted c.muted = (v.setter s c).map fun x ↦ (x.1.muted, x.2.muted) := by
  have husable : s.muted.usable c.muted = s.usable c := rfl
  have hfault : v.fault? s.muted c.muted = v.fault? s c := by cases v <;> rfl
  have hsettle : v.settle c.muted = (v.settle c).muted := by cases v <;> rfl
  rw [setter_eq, setter_eq, husable, hfault, hsettle]
  cases s.usable c with
  | error e => rfl
  | ok u => cases v.fault? s c <;> rfl

namespace Statement

theorem muted_slotHasRows (slot : Option Packet) :
    slotHasRows (slot.map Packet.muted) = slotHasRows slot := by
  cases slot <;> rfl

theorem muted_advanced (s : Statement) (mode : MoreResults) :
    (s.advanced mode).muted = s.muted.advanced mode := by
  have hcurrent : (s.pending.map Packet.withoutNext).map Packet.muted =
      s.muted.pending.map Packet.withoutNext := by
    unfold muted
    cases s.pending <;> rfl
  have hpending : ((s.pending.bind Packet.next?).map fun p ↦ p.bind s.binding).map Packet.muted =
      (s.muted.pending.bind Packet.next?).map fun p ↦ p.bind s.muted.binding := by
    unfold muted
    cases s.pending with
    | none => rfl
    | some p => exact p.muted_next?_bind s.binding
  have hkeeping : (s.keeping mode).map Packet.muted = s.muted.keeping mode := by
    cases mode <;> cases hc : s.current <;> simp [keeping, muted, hc]
  unfold advanced
  rw [← hkeeping, ← hcurrent, ← hpending]
  rfl

theorem muted_retiring (s : Statement) (mode : MoreResults) :
    (s.retiring mode).map Packet.muted = s.muted.retiring mode := by
  cases mode <;> cases hc : s.current <;> simp [retiring, muted, hc]

theorem muted_advance (s : Statement) (c : Context) (mode : MoreResults) :
    s.muted.advance c.muted mode = (s.advance c mode).muted fun more ↦ more := by
  have husable : s.muted.usable c.muted = s.usable c := rfl
  cases hu : s.usable c with
  | error e =>
    rw [advance_error hu, advance_error (husable.trans hu)]
    rfl
  | ok u =>
    rw [advance_ok hu, advance_ok (husable.trans hu), ← muted_advanced, ← muted_retiring,
      ← Context.muted_releaseAll]
    unfold Outcome.muted
    rw [show slotHasRows (s.advanced mode).muted.current = slotHasRows (s.advanced mode).current
      from muted_slotHasRows _]
    rfl

theorem muted_currentRows (s : Statement) (c : Context) :
    s.muted.currentRows c.muted = (s.currentRows c).map (Option.map Packet.muted) := by
  unfold currentRows read
  rw [show s.muted.usable c.muted = s.usable c from rfl]
  cases s.usable c with
  | error e => rfl
  | ok u =>
    dsimp only [Except.map]
    rw [show s.muted.current = s.current.map Packet.muted from rfl, muted_slotHasRows]
    split <;> rfl

/-- The current result of a muted statement is served like that of the statement. -/
theorem muted_serveCurrent (s : Statement) (c : Context) (q : Packet.Request) :
    (s.muted.serveCurrent c.muted q).statement = (s.serveCurrent c q).statement.muted ∧
      (s.muted.serveCurrent c.muted q).context = (s.serveCurrent c q).context.muted ∧
        (q ≠ .close → (s.muted.serveCurrent c.muted q).result = (s.serveCurrent c q).result) := by
  unfold serveCurrent
  rw [muted_currentRows]
  cases s.currentRows c with
  | error e => exact ⟨rfl, rfl, fun _ ↦ rfl⟩
  | ok slot =>
    cases slot with
    | none => exact ⟨rfl, rfl, fun _ ↦ rfl⟩
    | some p =>
      obtain ⟨hpacket, hevents, hreply⟩ := p.muted_serve q
      dsimp only [Except.map, Option.map]
      rw [hpacket, hevents, ← Context.muted_noteAll]
      exact ⟨rfl, rfl, fun hq ↦ by rw [hreply hq]⟩

/-- A muted statement takes the same changes and refuses the same. -/
theorem muted_runSetters (vs : List Setting) (s : Statement) (c : Context) :
    s.muted.runSetters c.muted (vs.map Setting.setter) =
      (s.runSetters c (vs.map Setting.setter)).muted fun u ↦ u := by
  induction vs generalizing s c with
  | nil => rfl
  | cons v vs ih =>
    rw [List.map_cons, runSetters, runSetters, Setting.muted_setter]
    cases v.setter s c with
    | error e => rfl
    | ok x => exact ih x.1 x.2

/-- A call that neither executes nor closes anything does the same without failures. -/
theorem muted_perform {call : Call} (hq : call.quiet = true) (hc : call ≠ .close)
    (hs : call ≠ .serve .close) (s : Statement) (c : Context) :
    s.muted.perform c.muted call = (s.perform c call).muted Answer.muted := by
  have husable : s.muted.usable c.muted = s.usable c := rfl
  by_cases hset : call.settings = []
  · cases call with
    | execute _ _ | query _ | update _ _ | largeUpdate _ | runBatch => simp [Call.quiet] at hq
    | set _ | configure _ => simp [Call.settings, Config.settings] at hset
    | close => exact absurd rfl hc
    | more mode =>
      change (s.muted.advance c.muted mode).answer .flag = _
      rw [muted_advance]
      exact Outcome.answer_muted fun _ ↦ rfl
    | serve q =>
      obtain ⟨hstatement, hcontext, hresult⟩ := s.muted_serveCurrent c q
      simp only [Statement.perform, Outcome.answer, Outcome.muted]
      rw [hstatement, hcontext, hresult fun hq ↦ hs (by rw [hq])]
      cases (s.serveCurrent c q).result <;> rfl
    | result =>
      simp only [Statement.perform, peek, Outcome.muted]
      rw [muted_currentRows]
      cases s.currentRows c <;> rfl
    | forgetWarnings =>
      simp only [Statement.perform, Outcome.answer, Statement.forgetWarnings, husable]
      cases s.usable c <;> rfl
    | enqueue sql =>
      simp only [Statement.perform, Outcome.answer, Statement.enqueue, husable]
      cases s.usable c with
      | error e => rfl
      | ok u =>
        dsimp only
        split <;> rfl
    | clearQueue =>
      simp only [Statement.perform, Outcome.answer, Statement.clearQueue, husable]
      cases s.usable c <;> rfl
    | generatedKeys | warnings | connection | setCursorName _ | cancel =>
      simp only [Statement.perform, peek, Statement.generatedKeys, Statement.currentWarnings, read,
        Outcome.muted, husable]
      cases s.usable c <;> rfl
  · rw [perform_settings hset, perform_settings hset, muted_runSetters]
    exact Outcome.answer_muted fun _ ↦ rfl

variable {s t : Statement} {c d : Context}

theorem runSetters_of_muted (hs : s.muted = t.muted) (hc : c.muted = d.muted)
    (vs : List Setting) :
    ((s.runSetters c (vs.map Setting.setter)).muted fun u ↦ u) =
      (t.runSetters d (vs.map Setting.setter)).muted fun u ↦ u := by
  rw [← muted_runSetters, hs, hc, muted_runSetters]

/-- Closing releases the same packets, whatever their hooks end with. -/
theorem close_of_muted (hs : s.muted = t.muted) (hc : c.muted = d.muted) :
    (s.close c).1.muted = (t.close d).1.muted ∧ (s.close c).2.muted = (t.close d).2.muted := by
  have hclosed : s.closed = t.closed := eq_of_map_eq (f := Statement.closed) hs fun _ ↦ rfl
  obtain ⟨hcurrent, hpending, hretained⟩ := slots_of_muted hs
  unfold close
  rw [hclosed]
  split
  · exact ⟨hs, hc⟩
  · refine ⟨?_, by simp [hc, hcurrent, hpending, hretained]⟩
    exact congrArg (fun s : Statement ↦
      { s with
        attached := false, current := none, pending := none, retained := [], queue := [],
        warnings := [], closed := true }) hs

/-- A call comes to the same, and unless it closes a result itself it answers the same. -/
theorem perform_of_muted (hs : s.muted = t.muted) (hc : c.muted = d.muted) {call : Call}
    (h : call ≠ .serve .close) :
    (s.perform c call).muted Answer.muted = (t.perform d call).muted Answer.muted := by
  cases hone : call.single? with
  | some ks =>
    obtain ⟨kind, sql⟩ := ks
    have hattempt (s : Statement) (c : Context) :
        ((s.attempt c kind sql).muted Packet.muted).answer call.answerOf =
          (s.perform c call).muted Answer.muted := by
      rw [Outcome.answer_muted call.muted_answerOf, perform_attempt hone]
      rfl
    rw [← hattempt, ← hattempt, attempt_of_muted hs hc]
  | none =>
    cases hq : call.quiet with
    | false =>
      have hbatch (s : Statement) (c : Context) :
          ((s.runBatch c).muted fun counts ↦ counts).answer .counts =
            (s.perform c .runBatch).muted Answer.muted :=
        Outcome.answer_muted fun _ ↦ rfl
      rw [Call.eq_runBatch hone hq, ← hbatch, ← hbatch, runBatch_of_muted hs hc]
    | true =>
      -- Closing writes to the log, which a muted journal has not, so no exact law holds of it.
      by_cases hclose : call = .close
      · subst hclose
        obtain ⟨hstatement, hcontext⟩ := close_of_muted hs hc
        simp only [Outcome.muted, Statement.perform, hstatement, hcontext]
      · rw [← muted_perform hq hclose h, hs, hc, muted_perform hq hclose h]

/-- Whether a result that a caller closes fails to be released is told to the caller alone. -/
theorem states_of_muted (hs : s.muted = t.muted) (hc : c.muted = d.muted) (call : Call) :
    (s.perform c call).statement.muted = (t.perform d call).statement.muted ∧
      (s.perform c call).context.muted = (t.perform d call).context.muted := by
  by_cases hcall : call = .serve .close
  · have hserved := s.muted_serveCurrent c .close
    rw [hs, hc] at hserved
    obtain ⟨hstatement, hcontext, -⟩ := hserved
    obtain ⟨hstatement', hcontext', -⟩ := t.muted_serveCurrent d .close
    rw [hcall]
    exact ⟨hstatement.symm.trans hstatement', hcontext.symm.trans hcontext'⟩
  · have hsame := perform_of_muted hs hc hcall
    exact ⟨Outcome.statement_of_muted hsame, Outcome.context_of_muted hsame⟩

end Statement

end SqlSession
