import SqlSession.Statement.Basic

/-!
# Result slots

The current result, the one that comes next, and the kept ones. An execution puts the first
response of its packet into the current slot and the rest into the pending slot; each advance
moves one response further. Whatever leaves a slot is closed, unless it is kept on request.

Specification: §4.2 and §10.6.
-/

namespace SqlSession.Statement

/-- Close the current result. Spec §4.2, `release_current`. -/
def emptyCurrent (s : Statement) (c : Context) : Statement × Context :=
  ({ s with current := none }, c.releaseSlot s.current)

/-- Put a packet, bound to the statement, into the pending slot and close what was there. Spec §4.2,
`replace_pending`. -/
def holdNext (s : Statement) (c : Context) (next : Option Packet) : Statement × Context :=
  ({ s with pending := next.map fun p ↦ p.bind s.binding }, c.releaseSlot s.pending)

/-- Make the first response of a packet current and the rest pending. Spec §4.2, `rotate_in`. -/
def install (s : Statement) (c : Context) (p : Packet) : Statement × Context :=
  let (s, c) := s.emptyCurrent c
  { s with current := some p.withoutNext }.holdNext c p.next?

/-- Make the first pending response current and leave the rest pending. Spec §4.2,
`promote_pending`. -/
def stepForward (s : Statement) (c : Context) : Statement × Context :=
  { s with current := s.pending.map Packet.withoutNext, pending := none }.holdNext c
    (s.pending.bind Packet.next?)

/-- A packet in a slot carries rows. -/
def slotHasRows (slot : Option Packet) : Bool :=
  match slot with
  | some p => p.head.hasRows
  | none => false

/-- Take the current result out of its slot as the mode says. Spec §4.2 and §10.9. -/
def retireCurrent (s : Statement) (c : Context) (mode : MoreResults) : Statement × Context :=
  match s.current with
  | none => (s, c)
  | some p =>
    if mode.closes then s.emptyCurrent c
    else ({ s with current := none, retained := s.retained ++ [p] }, c)

/-- Close every kept result if the mode says so. -/
def retireKept (s : Statement) (c : Context) (mode : MoreResults) : Statement × Context :=
  if mode = .closeAll then ({ s with retained := [] }, c.releaseAll s.retained) else (s, c)

/-- Advance to the next result; tell whether it carries rows. Spec §4.2, `get_more_results_with`. -/
def advance (s : Statement) (c : Context) (mode : MoreResults) : Outcome Bool :=
  match s.usable c with
  | .error e => ⟨.error e, s, c⟩
  | .ok _ =>
    let (s, c) := s.retireCurrent c mode
    let (s, c) := s.retireKept c mode
    let (s, c) := s.stepForward c
    ⟨.ok (slotHasRows s.current), s, c⟩

/-- The current result, only when it carries rows. Spec §10.6, `result_set`. -/
def currentRows (s : Statement) (c : Context) : Except SqlError (Option Packet) :=
  s.read c fun s ↦ if slotHasRows s.current then s.current else none

/-- A result waits behind the current one. Spec §4.2, `has_pending_result`. -/
def hasMore (s : Statement) : Bool := s.pending.isSome

/-- The update count of the current result, -1 when there is none or it carries rows. Spec §10.6,
`long_update_count`. -/
def largeUpdateCount (s : Statement) (c : Context) : Except SqlError Int64 :=
  s.read c fun s ↦
    match s.current with
    | some p => if p.head.hasRows then -1 else p.head.updateCount
    | none => -1

/-- An update count as a 32-bit integer; what does not fit becomes the greatest one. -/
def narrowCount (n : Int64) : Int32 := (Decimal.toInt32? n.toInt).getD Int32.maxValue

/-- The update count of the current result as a 32-bit integer. Spec §10.6, `update_count`. -/
def updateCount (s : Statement) (c : Context) : Except SqlError Int32 :=
  (s.largeUpdateCount c).map narrowCount

/-- The generated key of the last packet. Spec §10.6, `last_insert_id`. -/
def generatedKey (s : Statement) (c : Context) : Except SqlError Int64 :=
  s.read c (·.lastKey)

/-- The generated key of the last packet as a result of its own. Spec §10.6, `generated_keys`. -/
def generatedKeys (s : Statement) (c : Context) : Except SqlError Packet :=
  s.read c fun s ↦
    { head := { Response.ofKey s.lastKey with binding := { statement := some s.id } } }

/-- The warnings of the last execution. Spec §3, `warnings`. -/
def currentWarnings (s : Statement) (c : Context) : Except SqlError Warnings :=
  s.read c (·.warnings)

/-- Forget the warnings. Spec §3, `clear_warnings`. -/
def forgetWarnings (s : Statement) (c : Context) : Outcome Unit :=
  match s.usable c with
  | .error e => ⟨.error e, s, c⟩
  | .ok _ => ⟨.ok (), { s with warnings := [] }, c⟩

/-- Serve a request to the current result, if it carries rows. -/
def serveCurrent (s : Statement) (c : Context) (q : Packet.Request) :
    Outcome (Option Packet.Reply) :=
  match s.currentRows c with
  | .error e => ⟨.error e, s, c⟩
  | .ok none => ⟨.ok none, s, c⟩
  | .ok (some p) =>
    let r := p.serve q
    ⟨r.reply.map some, { s with current := some r.packet }, c.noteAll r.events⟩

end SqlSession.Statement
