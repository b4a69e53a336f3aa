import SqlSession.Proofs.Atomicity
import SqlSession.Proofs.CatalogScope

/-!
# The packet of an execution

An execution obtains the packet that the connection gives for its text if the former catalog is
selected again. The records of the connection tell so much, and what becomes of the statement is
decided by that packet alone: whether there is one, and whether it is of the right sort.
-/

namespace SqlSession

/-- The command carries the text of a statement and was answered with a packet. -/
def Dispatch.deliversText (d : Dispatch) : Bool := d.command.purpose == .text && d.accepted

/-- The last command carries the text of a statement and was answered with a packet. -/
def endsInText (sent : List Dispatch) : Bool := sent.getLast?.any Dispatch.deliversText

namespace Execution

/-- The packet that the connection gives for the text of the execution. Nothing is given where the
text is not sent or is answered with an error. -/
def answered? (e : Execution) : Option Packet :=
  if endsInText e.sent then e.given.getLast? else none

/-- The packet that the execution obtains: one is given for its text, and the catalog that was
selected before is so again. -/
def obtained? (e : Execution) : Option Packet :=
  if e.after.connection.catalog = e.context.connection.catalog then e.answered? else none

/-- The packet is the answer to the text of the execution, with its hooks numbered. -/
def Answers (e : Execution) (p : Packet) : Prop :=
  ∃ text q n, e.statement.expanded e.sql = .ok text ∧
    e.context.connection.answer text = .ok q ∧ p = (q.issue n).1

/-- Why the checks refuse the execution. -/
def refusal? (e : Execution) : Option SqlError :=
  e.statement.refusal? e.context e.kind e.sql

end Execution

namespace Statement

/-- A delivery ends in the text exactly if a packet comes back for it. -/
theorem Delivery.endsInText {plan : Sql.LimitRoute} {catalog text : String} {f : Shape}
    {outcome : Except SqlError Packet} {sent : List Dispatch}
    (h : Delivery plan catalog text f outcome sent) :
    SqlSession.endsInText sent = outcome.isOk := by
  cases h with
  | withheld _ he =>
    rw [he]
    rfl
  | delivered =>
    rw [SqlSession.endsInText, List.getLast?_concat]
    exact Bool.true_and _

/-- What an exchange does to the connection: it adds to the records, and it may leave another
catalog selected, but not where a packet comes back. With the former catalog selected again, the
text is the last command that was answered with a packet exactly if that packet comes back. -/
theorem exchange_endsInText {s : Statement} {c c' : Context} {text : String} {f : Shape}
    {outcome : Except SqlError Packet} (ho : c.connection.closed = false)
    (h : s.exchangeInCatalog c text f = (outcome, c')) :
    ∃ sent,
      (∃ catalog selections issued, c'.connection =
        { c.connection with
          catalog, selections, issued, dispatches := c.connection.dispatches ++ sent }) ∧
      (c'.connection.catalog = c.connection.catalog → endsInText sent = outcome.isOk) ∧
      (outcome.isOk = true → c'.connection.catalog = c.connection.catalog) := by
  have hs := s.exchangeInCatalog_exchange c text f
  rw [h] at hs
  generalize hx : (outcome, c') = x at hs
  -- behind the change to the catalog of the statement the text is delivered
  have inside {k : Connection} {given : Except SqlError Packet} {d : Context}
      (hsel : c.connection.selectCatalog s.catalog = .ok k)
      (hsend : s.sendLimited { c with connection := k } text f = (given, d)) :
      ∃ sent selections issued, d.connection =
        { c.connection with
          catalog := s.catalog, selections, issued
          dispatches := c.connection.dispatches ++ sent } ∧
        endsInText sent = given.isOk := by
    obtain ⟨-, rfl⟩ := Connection.selectCatalog_ok hsel
    obtain ⟨sent, hsent, hd⟩ := sends_sendLimited (by exact ho) hsend
    obtain ⟨n, hn⟩ := hsent.connection
    exact ⟨sent, _, n, hn, hd.endsInText⟩
  cases hs with
  | inPlace hc =>
    obtain ⟨sent, hsent, hd⟩ := sends_sendLimited ho hx.symm
    obtain ⟨n, hn⟩ := hsent.connection
    rw [hn]
    exact ⟨sent, ⟨_, _, n, rfl⟩, fun _ ↦ hd.endsInText, fun _ ↦ rfl⟩
  | barred _ _ =>
    obtain ⟨rfl, rfl⟩ := Prod.mk.inj hx
    exact ⟨[], ⟨_, _, _, by rw [List.append_nil]⟩, fun _ ↦ rfl, fun _ ↦ rfl⟩
  | restored _ hsel hsend hr =>
    obtain ⟨rfl, rfl⟩ := Prod.mk.inj hx
    obtain ⟨sent, selections, n, hn, hd⟩ := inside hsel hsend
    obtain ⟨-, rfl⟩ := Connection.selectCatalog_ok hr
    rw [hn]
    exact ⟨sent, ⟨_, _, n, rfl⟩, fun _ ↦ hd, fun _ ↦ rfl⟩
  | strandedError _ hsel hsend _ =>
    obtain ⟨rfl, rfl⟩ := Prod.mk.inj hx
    obtain ⟨sent, selections, n, hn, hd⟩ := inside hsel hsend
    rw [Context.connection_log, hn]
    exact ⟨sent, ⟨_, _, n, rfl⟩, fun _ ↦ hd, fun hok ↦ by simp [Except.isOk, Except.toBool] at hok⟩
  | strandedPacket hne hsel hsend _ =>
    obtain ⟨rfl, rfl⟩ := Prod.mk.inj hx
    obtain ⟨sent, selections, n, hn, -⟩ := inside hsel hsend
    rw [Context.connection_release, Context.connection_log, hn]
    exact ⟨sent, ⟨_, _, n, rfl⟩, fun hc ↦ absurd hc.symm hne,
      fun hok ↦ by simp [Except.isOk, Except.toBool] at hok⟩

end Statement

namespace Execution

/-- Behind its checks there is no reason to refuse an execution. -/
theorem refusal?_of_prepare {e : Execution} {text : String}
    (h : e.statement.prepare e.context e.kind e.sql = .ok text) : e.refusal? = none := by
  cases hr : e.refusal? with
  | none => rfl
  | some err =>
    have herr := Statement.prepare_error_iff.2 hr
    rw [h] at herr
    simp at herr

/-- What an execution comes to by the packet that it obtains. -/
inductive Ending (e : Execution) : Option Packet → Outcome Packet → Prop
  /-- The checks refuse it, and nothing changes. -/
  | refused {err : SqlError} (h : e.refusal? = some err) :
    Ending e none ⟨.error err, e.statement, e.context⟩
  /-- There is no packet, and the results and the warnings are gone. -/
  | failed {err : SqlError} {c : Context} (h : e.refusal? = none)
      (hf : ∃ text, e.statement.expanded e.sql = .ok text ∧
        e.statement.Failure e.context e.kind text err none)
      (hk : c.connection.rollbacks = e.context.connection.rollbacks) :
    Ending e none ⟨.error err, e.statement.cleared, c⟩
  /-- The packet is of the wrong sort. -/
  | rejected {p : Packet} {err : SqlError} {c : Context} (h : e.refusal? = none)
      (hp : e.Answers p) (hm : e.kind.mismatch? p = some err)
      (hk : c.connection.rollbacks = e.context.connection.rollbacks) :
    Ending e (some p) ⟨.error err, e.statement.cleared.noting p,
      (e.statement.cleared.noting p).reject c (e.statement.adopt p)⟩
  /-- The packet goes into the slots. -/
  | presented {p : Packet} {c : Context} (h : e.refusal? = none) (hp : e.Answers p)
      (hm : e.kind.mismatch? p = none)
      (hk : c.connection.rollbacks = e.context.connection.rollbacks) :
    Ending e (some p)
      ⟨.ok (e.statement.adopt p), (e.statement.cleared.noting p).present (e.statement.adopt p), c⟩

/-- Taking a packet over does not change its sort. -/
theorem mismatch?_adopt (kind : StatementKind) (s : Statement) (p : Packet) :
    kind.mismatch? (s.adopt p) = kind.mismatch? p := by
  cases kind <;> rfl

/-- An execution that leaves the records as they are obtains nothing. -/
theorem obtained?_of_unsent {e : Execution} (h : e.after.connection = e.context.connection) :
    e.obtained? = none := by
  have hsent : e.sent = [] := by rw [sent, h, List.drop_length]
  simp [obtained?, answered?, hsent, endsInText]

/-- An execution obtains the packet that comes back from its exchange with the connection. -/
theorem obtained?_of_exchange {e : Execution} {text : String} {l c' : Context}
    {outcome : Except SqlError Packet}
    (hp : e.statement.prepare e.context e.kind e.sql = .ok text)
    (hl : (e.statement.opening e.context e.kind text).lock = .ok l)
    (hx : e.statement.cleared.exchangeInCatalog l text (e.statement.shape e.kind text) =
      (outcome, c'))
    (hk : ∃ rollbacks, e.after.connection = { c'.connection with rollbacks }) :
    e.obtained? = outcome.toOption ∧
      c'.connection.rollbacks = e.context.connection.rollbacks := by
  have hbooks := Statement.connection_of_opening hl
  have ho := hbooks ▸ Statement.open_of_prepare hp
  obtain ⟨sent, ⟨catalog, selections, issued, hc'⟩, hend, hback⟩ :=
    Statement.exchange_endsInText ho hx
  obtain ⟨sent', selected, hexchanged⟩ := Statement.exchange_exchanged ho hx
  have hsame : sent' = sent := by
    have hadded := hexchanged.dispatches
    rw [hc'] at hadded
    exact (List.append_cancel_left hadded).symm
  obtain ⟨n, hn⟩ := hk
  have hsent : e.sent = sent := by
    rw [Execution.sent, hn, hc', hbooks, List.drop_left]
  have hcatalog : e.after.connection.catalog = c'.connection.catalog := by rw [hn]
  have hgiven := hexchanged.given
  rw [hsame, hbooks] at hgiven
  rw [hbooks] at hend hback
  refine ⟨?_, by rw [hc', hbooks]⟩
  unfold obtained? answered? given
  rw [hcatalog, hsent]
  cases outcome with
  | ok p =>
    rw [if_pos (hback rfl), hend (hback rfl)]
    exact hgiven p rfl
  | error err =>
    split
    · next hc =>
      rw [hend hc]
      rfl
    · rfl

/-- The packet that comes back from an exchange is the answer to the text. -/
theorem answers_of_exchange {e : Execution} {text : String} {l c' : Context} {p : Packet}
    (hp : e.statement.prepare e.context e.kind e.sql = .ok text)
    (hl : (e.statement.opening e.context e.kind text).lock = .ok l)
    (hx : e.statement.cleared.exchangeInCatalog l text (e.statement.shape e.kind text) =
      (.ok p, c')) : e.Answers p := by
  obtain ⟨hreplied, -, -⟩ := Statement.replied_of_exchange hp hl hx
  have hanswered : Answered e.context.connection.answer
      (e.statement.route e.context text (e.statement.shape e.kind text)) text (.ok p) := by
    cases hreplied with
    | answered _ ha _ => exact ha
  generalize hgiven : Except.ok p = given at hanswered
  cases hanswered with
  | directive _ _ => simp at hgiven
  | text _ n =>
    cases hq : e.context.connection.answer text with
    | error err => simp [hq, Except.map] at hgiven
    | ok q =>
      rw [hq] at hgiven
      exact ⟨text, q, n, Statement.expanded_of_prepare hp, hq, Except.ok.inj hgiven⟩

/-- The packet that an execution obtains decides what comes of it. -/
theorem ending (e : Execution) : e.Ending e.obtained? e.outcome := by
  have hx := e.statement.attempt_course e.context e.kind e.sql
  have hafter : e.outcome = e.statement.attempt e.context e.kind e.sql := rfl
  rw [← hafter] at hx
  generalize ho : e.outcome = o at hx
  cases hx with
  | refused hp =>
    rw [obtained?_of_unsent (by rw [after, ho])]
    exact .refused (Statement.prepare_error_iff.1 hp)
  | @lockedOut text err hp hl =>
    have hk : (e.statement.opening e.context e.kind text).connection = e.context.connection := by
      simp [Statement.opening]
    rw [obtained?_of_unsent (by rw [after, ho]; exact hk)]
    refine .failed (refusal?_of_prepare hp) ⟨text, Statement.expanded_of_prepare hp, ?_⟩
      (by rw [hk])
    unfold Context.lock at hl
    split at hl
    · next hpoison =>
      rw [← Except.error.inj hl]
      exact .lockedOut hpoison
    · simp at hl
  | @failed text l c' err hp hl hx =>
    obtain ⟨hobtained, hk⟩ := obtained?_of_exchange hp hl hx
      ⟨c'.connection.rollbacks, by rw [after, ho]; simp⟩
    obtain ⟨hreplied, hfree, -⟩ := Statement.replied_of_exchange hp hl hx
    rw [hobtained]
    exact .failed (refusal?_of_prepare hp)
      ⟨text, Statement.expanded_of_prepare hp, .unanswered hfree hreplied⟩ (by simpa using hk)
  | @rejected text l c' p err hp hl hx hm =>
    obtain ⟨n, hn⟩ := (e.statement.cleared.noting p).connection_reject
      (c'.unlock.count e.statement.setup.scope fun m ↦
        m.addStatement e.kind c'.connection.elapsed)
      (e.statement.adopt p)
    obtain ⟨hobtained, hk⟩ := obtained?_of_exchange hp hl hx ⟨n, by
      rw [after, ho, hn, Context.connection_count, Context.connection_unlock]⟩
    rw [hobtained]
    exact .rejected (refusal?_of_prepare hp) (answers_of_exchange hp hl hx)
      (mismatch?_adopt e.kind e.statement p ▸ hm) (by simpa using hk)
  | @presented text l c' p hp hl hx hm =>
    obtain ⟨hobtained, hk⟩ := obtained?_of_exchange hp hl hx
      ⟨c'.connection.rollbacks, by rw [after, ho]; simp⟩
    rw [hobtained]
    exact .presented (refusal?_of_prepare hp) (answers_of_exchange hp hl hx)
      (mismatch?_adopt e.kind e.statement p ▸ hm) (by simpa using hk)

/-- An execution obtains nothing but the answer to its text. -/
theorem answers_of_obtained {e : Execution} {p : Packet} (h : e.obtained? = some p) :
    e.Answers p := by
  have hx := e.ending
  rw [h] at hx
  generalize e.outcome = o at hx
  cases hx with
  | rejected _ hp _ _ => exact hp
  | presented _ hp _ _ => exact hp

end Execution

end SqlSession
