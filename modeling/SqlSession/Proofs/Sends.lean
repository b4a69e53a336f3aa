import SqlSession.Proofs.Ledger

/-!
# The commands of an exchange

Which commands an exchange sends, what becomes of the packets that it is given, and which
catalogs it selects.
-/

namespace SqlSession

namespace Connection

/-- The packets that the connection gives for commands, their hooks numbered from the given
number on. -/
def packets (c : Connection) (n : Nat) : List Dispatch → List Packet
  | [] => []
  | d :: rest =>
    match c.answer d.command.sql with
    | .ok p => (p.issue n).1 :: c.packets (p.issue n).2 rest
    | .error _ => c.packets n rest

/-- The rules alone decide the answers. -/
theorem packets_of_rules {c k : Connection} (h : k.rules = c.rules) (n : Nat)
    (ds : List Dispatch) : k.packets n ds = c.packets n ds := by
  have ha : k.answer = c.answer := by
    ext sql
    rw [answer, answer, h]
  induction ds generalizing n with
  | nil => rfl
  | cons d rest ih => simp only [packets, ha, ih]

/-- The packets for commands in two parts are those for the first part and then those for the
second. -/
theorem packets_append (c : Connection) (n : Nat) (a b : List Dispatch) :
    c.packets n (a ++ b) = c.packets n a ++
      c.packets (n + (a.flatMap fun d ↦ c.answerHooks d.command.sql).length) b := by
  induction a generalizing n with
  | nil => simp [packets]
  | cons d rest ih =>
    cases ha : c.answer d.command.sql with
    | ok p =>
      have hn := (p.issue_eq n).2
      simp [packets, answerHooks, ha, ih, hn, Nat.add_assoc]
    | error e => simp [packets, answerHooks, ha, ih]

/-- The connection with the records of more commands and another count of hooks. -/
def took (c : Connection) (sent : List Dispatch) (issued : Nat) : Connection :=
  { c with dispatches := c.dispatches ++ sent, issued }

/-- The error of an execution whose last command is at hand when the former catalog is refused:
the error of the command, or the refusal where the command was answered. -/
def strandingError (c : Connection) (d : Dispatch) : SqlError :=
  match c.answer d.command.sql with
  | .error e => e
  | .ok _ => unknownCatalog c.catalog

end Connection

/-- The hooks that run when the packet that came back, if one did, is closed. -/
def outcomeClosing : Except SqlError Packet → List Hook
  | .ok p => p.closing
  | .error _ => []

namespace Context

/-- The commands went over the connection one after the other. The last one decides the outcome,
and every packet but the one that came back, the last one given, is closed. -/
structure Sends (c : Context) (outcome : Except SqlError Packet) (c' : Context)
    (sent : List Dispatch) : Prop where
  connection : ∃ issued, c'.connection = c.connection.took sent issued
  issued : c'.connection.issued =
    c.connection.issued + (sent.flatMap fun d ↦ c.connection.answerHooks d.command.sql).length
  own : ∀ d ∈ sent, d.catalog = c.connection.catalog
  last : ∃ d, sent.getLast? = some d ∧
    (∀ e, outcome = .error e → c.connection.answer d.command.sql = .error e) ∧
      ∀ p, outcome = .ok p → ∃ q, c.connection.answer d.command.sql = .ok q
  given : ∀ p, outcome = .ok p →
    (c.connection.packets c.connection.issued sent).getLast? = some p
  released : c'.released ++ outcomeClosing outcome =
    c.released ++ (c.connection.packets c.connection.issued sent).flatMap Packet.closing

/-- An open connection records a command and answers it. -/
theorem sends_send {c c' : Context} {cmd : Command} {outcome : Except SqlError Packet}
    (ho : c.connection.closed = false) (h : c.send cmd = (outcome, c')) :
    c.Sends outcome c' [⟨cmd, c.connection.catalog, outcome.isOk⟩] := by
  cases outcome with
  | ok p =>
    obtain ⟨-, q, ha, rfl, rfl⟩ := send_ok h
    refine ⟨⟨_, rfl⟩, ?_, by simp, ⟨_, rfl, by simp, ?_⟩, ?_, ?_⟩
    · simp [Connection.answerHooks, ha, (q.issue_eq _).2]
    · intro p _
      exact ⟨q, ha⟩
    · intro p hp
      simpa [Connection.packets, ha] using hp
    · simp [Connection.packets, ha, outcomeClosing, Context.released]
  | error e =>
    rcases send_error h with ⟨hc, -, -⟩ | ⟨-, ha, rfl⟩
    · rw [ho] at hc
      simp at hc
    · refine ⟨⟨_, rfl⟩, ?_, by simp, ⟨_, rfl, ?_, by simp⟩, by simp, ?_⟩
      · simp [Connection.recording, Connection.answerHooks, ha]
      · intro e' he
        rw [← Except.error.inj he]
        exact ha
      · simp [Connection.packets, ha, outcomeClosing, Context.released]

/-- Commands follow one whose packet is closed in between. -/
theorem Sends.behind {c c₁ c₂ : Context} {ack : Packet} {outcome : Except SqlError Packet}
    {a b : List Dispatch} (h₁ : c.Sends (.ok ack) c₁ a)
    (h₂ : (c₁.release ack).Sends outcome c₂ b) : c.Sends outcome c₂ (a ++ b) := by
  obtain ⟨n, hn⟩ := h₁.connection
  obtain ⟨m, hm⟩ := h₂.connection
  obtain ⟨d, hd, he, hp⟩ := h₂.last
  have hk : (c₁.release ack).connection = c.connection.took a n := by
    rw [connection_release, hn]
  have hi := h₂.issued
  have ho := h₂.own
  have hg := h₂.given
  have hr := h₂.released
  rw [hk] at hm he hp hi ho hg hr
  have hi₁ := h₁.issued
  rw [hn] at hi₁
  change n = _ at hi₁
  have hb : (c.connection.took a n).packets n b = c.connection.packets n b :=
    Connection.packets_of_rules (by rfl) n b
  refine ⟨⟨m, ?_⟩, ?_, ?_, ⟨d, ?_, he, hp⟩, ?_, ?_⟩
  · rw [hm]
    simp [Connection.took]
  · rw [hi, List.flatMap_append, List.length_append, ← Nat.add_assoc, ← hi₁]
    rfl
  · intro x hx
    rcases List.mem_append.1 hx with hx | hx
    · exact h₁.own x hx
    · exact ho x hx
  · rw [List.getLast?_append, hd]
    rfl
  · intro p hp
    have hlast : (c.connection.packets n b).getLast? = some p := hb ▸ hg p hp
    rw [Connection.packets_append, ← hi₁, List.getLast?_append, hlast]
    rfl
  · have hack := h₁.released
    rw [outcomeClosing] at hack
    rw [hr, released_release, hack, Connection.packets_append, List.flatMap_append,
      List.append_assoc, ← hi₁, ← hb]
    rfl

/-- What precedes the commands leaves the connection alone and runs no hook. -/
theorem Sends.after {c₀ c c' : Context} {outcome : Except SqlError Packet} {sent : List Dispatch}
    (hk : c.connection = c₀.connection) (hr : c.released = c₀.released)
    (h : c.Sends outcome c' sent) : c₀.Sends outcome c' sent where
  connection := hk ▸ h.connection
  issued := hk ▸ h.issued
  own := hk ▸ h.own
  last := hk ▸ h.last
  given := hk ▸ h.given
  released := by rw [h.released, hr, hk]

end Context

namespace Statement

/-- The commands that a plan sends in a catalog: a refused directive, or the text behind its
directive, if the plan has one. -/
inductive Delivery (plan : Sql.LimitRoute) (catalog text : String) (f : Shape)
    (outcome : Except SqlError Packet) : List Dispatch → Prop
  | withheld {directive : String} {e : SqlError} (h : plan.directive? = some directive)
      (he : outcome = .error e) :
    Delivery plan catalog text f outcome [⟨limitCommand directive, catalog, false⟩]
  | delivered :
    Delivery plan catalog text f outcome
      ((plan.directive?.toList.map fun d ↦ ⟨limitCommand d, catalog, true⟩) ++
        [⟨command text plan.cap f, catalog, outcome.isOk⟩])

/-- Sending a text sends the commands of its plan. -/
theorem sends_sendLimited {s : Statement} {c c' : Context} {text : String} {f : Shape}
    {outcome : Except SqlError Packet} (ho : c.connection.closed = false)
    (h : s.sendLimited c text f = (outcome, c')) :
    ∃ sent, c.Sends outcome c' sent ∧
      Delivery (s.route c text f) c.connection.catalog text f outcome sent := by
  have hs := s.sendLimited_sending c text f
  rw [h] at hs
  generalize hx : (outcome, c') = x at hs
  cases hs with
  | bare hp =>
    have hd : Delivery (s.route c text f) c.connection.catalog text f outcome _ := .delivered
    rw [hp] at hd
    exact ⟨_, Context.sends_send ho hx.symm, hd⟩
  | @withheld d e c'' hp hd =>
    obtain ⟨rfl, rfl⟩ := Prod.mk.inj hx
    have hsent := Context.sends_send (by simpa [announcing] using ho) hd
    have hk : (s.announcing c d).connection = c.connection := by simp [announcing]
    rw [hk] at hsent
    exact ⟨_, hsent.after hk (by simp [announcing]), .withheld hp rfl⟩
  | @directed d ack c'' hp hd =>
    have ha := Context.sends_send (by simpa [announcing] using ho) hd
    have hk : (s.announcing c d).connection = c.connection := by simp [announcing]
    rw [hk] at ha
    have ha' := ha.after hk (by simp [announcing])
    obtain ⟨n, hn⟩ := ha'.connection
    have hk' : (c''.release ack).connection.closed = false ∧
        (c''.release ack).connection.catalog = c.connection.catalog := by
      rw [Context.connection_release, hn]
      exact ⟨ho, rfl⟩
    have hb := Context.sends_send hk'.1 hx.symm
    rw [hk'.2] at hb
    have hdel : Delivery (s.route c text f) c.connection.catalog text f outcome _ := .delivered
    rw [hp] at hdel
    exact ⟨_, ha'.behind hb, hdel⟩

/-- The commands of an exchange over a connection: none where the catalog of the statement cannot
be selected, else those of its plan. -/
inductive Posted (s : Statement) (k : Connection) (plan : Sql.LimitRoute) (text : String)
    (f : Shape) : List Dispatch → Prop
  | barred (h : k.catalog ≠ s.catalog) (hm : k.missingCatalog = some s.catalog) :
    Posted s k plan text f []
  | posted {sent : List Dispatch} {given : Except SqlError Packet}
      (h : k.catalog = s.catalog ∨ k.missingCatalog ≠ some s.catalog)
      (hd : Delivery plan s.catalog text f given sent) :
    Posted s k plan text f sent

end Statement

/-- What becomes of the selected catalog while a statement of a catalog has its exchange. The
hooks at hand ran before the first command. -/
inductive CatalogCourse (own : String) (k : Connection) (ran : List Hook)
    (result : Except SqlError Packet) (c' : Context) (sent : List Dispatch) :
    List String → Prop
  /-- No catalog is selected. If it is not the own one, nothing is sent. -/
  | kept (hc : c'.connection.catalog = k.catalog)
      (hs : k.catalog ≠ own → sent = [] ∧ ∃ e, result = .error e) :
    CatalogCourse own k ran result c' sent []
  /-- The own catalog is selected and then the former one again. -/
  | restored (hne : k.catalog ≠ own) (hc : c'.connection.catalog = k.catalog) :
    CatalogCourse own k ran result c' sent [own, k.catalog]
  /-- The former catalog cannot be selected again. The execution fails, and every packet that it
  was given is closed. -/
  | stranded {d : Dispatch} (hne : k.catalog ≠ own) (hm : k.missingCatalog = some k.catalog)
      (hc : c'.connection.catalog = own) (hd : sent.getLast? = some d)
      (he : result = .error (k.strandingError d))
      (hr : c'.released = ran ++ (k.packets k.issued sent).flatMap Packet.closing) :
    CatalogCourse own k ran result c' sent [own]

namespace CatalogCourse

variable {own : String} {k : Connection} {ran : List Hook} {c' c'' : Context}
  {sent : List Dispatch} {selected : List String}

/-- What follows may be left out of sight while it leaves the catalog alone and runs no hook. -/
theorem later {result : Except SqlError Packet}
    (h : CatalogCourse own k ran result c' sent selected)
    (hc : c''.connection.catalog = c'.connection.catalog) (hr : c''.released = c'.released) :
    CatalogCourse own k ran result c'' sent selected := by
  cases h with
  | kept hk hs => exact .kept (hc.trans hk) hs
  | restored hne hk => exact .restored hne (hc.trans hk)
  | stranded hne hm hk hd he hrel => exact .stranded hne hm (hc.trans hk) hd he (hr.trans hrel)

/-- With a packet back the former catalog is selected, whatever is made of the packet. -/
theorem answered {p : Packet} (h : CatalogCourse own k ran (.ok p) c' sent selected)
    (hc : c''.connection.catalog = c'.connection.catalog) (result : Except SqlError Packet) :
    CatalogCourse own k ran result c'' sent selected := by
  cases h with
  | kept hk hs =>
    refine .kept (hc.trans hk) fun hne ↦ ?_
    obtain ⟨-, e, he⟩ := hs hne
    simp at he
  | restored hne hk => exact .restored hne (hc.trans hk)
  | stranded _ _ _ _ he _ => simp at he

end CatalogCourse

namespace Statement

/-- Behind the change to the catalog of the statement, a text is sent as its plan says, and the
rules and numbers are the same as before the change. -/
theorem sends_selected {s : Statement} {c d : Context} {k : Connection} {text : String}
    {f : Shape} {given : Except SqlError Packet} (ho : c.connection.closed = false)
    (hsel : c.connection.selectCatalog s.catalog = .ok k)
    (hsend : s.sendLimited { c with connection := k } text f = (given, d)) :
    ∃ sent n, s.Posted c.connection (s.route c text f) text f sent ∧
      (∀ x ∈ sent, x.catalog = s.catalog) ∧
      d.connection =
        { c.connection with
          catalog := s.catalog
          selections := c.connection.selections ++ [s.catalog]
          dispatches := c.connection.dispatches ++ sent
          issued := n } ∧
      (∃ x, sent.getLast? = some x ∧
        (∀ e, given = .error e → c.connection.answer x.command.sql = .error e) ∧
          ∀ p, given = .ok p → ∃ q, c.connection.answer x.command.sql = .ok q) ∧
      (∀ p, given = .ok p →
        (c.connection.packets c.connection.issued sent).getLast? = some p) ∧
      d.released ++ outcomeClosing given =
        c.released ++ (c.connection.packets c.connection.issued sent).flatMap Packet.closing := by
  obtain ⟨hm, rfl⟩ := Connection.selectCatalog_ok hsel
  obtain ⟨sent, hsent, hd⟩ := sends_sendLimited (by exact ho) hsend
  obtain ⟨n, hn⟩ := hsent.connection
  have hgiven := hsent.given
  have hreleased := hsent.released
  -- selecting a catalog leaves the rules alone
  have hrules (n : Nat) (ds : List Dispatch) :
      ({ c.connection with
          catalog := s.catalog
          selections := c.connection.selections ++ [s.catalog] } : Connection).packets n ds =
        c.connection.packets n ds := Connection.packets_of_rules (by rfl) n ds
  rw [hrules] at hgiven hreleased
  exact ⟨sent, n, .posted (.inr hm) hd, hsent.own, hn, hsent.last, hgiven, hreleased⟩

/-- What an exchange adds to the records of the connection, and what it leaves behind. -/
structure Exchanged (s : Statement) (c : Context) (text : String) (f : Shape)
    (outcome : Except SqlError Packet) (c' : Context) (sent : List Dispatch)
    (selected : List String) : Prop where
  dispatches : c'.connection.dispatches = c.connection.dispatches ++ sent
  selections : c'.connection.selections = c.connection.selections ++ selected
  limitsRows : c'.connection.limitsRows = c.connection.limitsRows
  own : ∀ d ∈ sent, d.catalog = s.catalog
  posted : s.Posted c.connection (s.route c text f) text f sent
  course : CatalogCourse s.catalog c.connection c.released outcome c' sent selected
  given : ∀ p, outcome = .ok p →
    (c.connection.packets c.connection.issued sent).getLast? = some p

/-- The exchange of a text sends its plan in the catalog of the statement. -/
theorem exchange_exchanged {s : Statement} {c c' : Context} {text : String} {f : Shape}
    {outcome : Except SqlError Packet} (ho : c.connection.closed = false)
    (h : s.exchangeInCatalog c text f = (outcome, c')) :
    ∃ sent selected, s.Exchanged c text f outcome c' sent selected := by
  have hs := s.exchangeInCatalog_exchange c text f
  rw [h] at hs
  generalize hx : (outcome, c') = x at hs
  cases hs with
  | inPlace hc =>
    obtain ⟨sent, hsent, hd⟩ := sends_sendLimited ho hx.symm
    obtain ⟨n, hn⟩ := hsent.connection
    refine ⟨sent, [], by rw [hn]; rfl, by simp [hn, Connection.took], by rw [hn]; rfl, ?_,
      .posted (.inl hc) (hc ▸ hd), .kept (by rw [hn]; rfl) ?_, hsent.given⟩
    · intro d hd
      rw [hsent.own d hd, hc]
    · intro hne
      exact absurd hc hne
  | barred hne hsel =>
    obtain ⟨rfl, rfl⟩ := Prod.mk.inj hx
    obtain ⟨hm, -⟩ := Connection.selectCatalog_error hsel
    exact ⟨[], [], by simp, by simp, rfl, by simp, .barred hne hm,
      .kept rfl fun _ ↦ ⟨rfl, _, rfl⟩, by simp⟩
  | @restored k k' given d hne hsel hsend hr =>
    obtain ⟨rfl, rfl⟩ := Prod.mk.inj hx
    obtain ⟨sent, n, hposted, hown, hn, -, hgiven, -⟩ := sends_selected ho hsel hsend
    obtain ⟨-, rfl⟩ := Connection.selectCatalog_ok hr
    exact ⟨sent, [s.catalog, c.connection.catalog], by simp [hn], by simp [hn], by simp [hn],
      hown, hposted, .restored hne rfl, hgiven⟩
  | @strandedError k d e e' hne hsel hsend hr =>
    obtain ⟨rfl, rfl⟩ := Prod.mk.inj hx
    obtain ⟨sent, n, hposted, hown, hn, ⟨x, hlast, he, -⟩, -, hrel⟩ := sends_selected ho hsel hsend
    obtain ⟨hm, -⟩ := Connection.selectCatalog_error hr
    rw [hn] at hm
    rw [outcomeClosing, List.append_nil] at hrel
    refine ⟨sent, [s.catalog], by simp [hn], by simp [hn], by simp [hn], hown, hposted,
      .stranded hne hm (by simp [hn]) hlast ?_ ?_, by simp⟩
    · rw [Connection.strandingError, he e' rfl]
    · rw [Context.released_log, hrel]
  | @strandedPacket k d p e hne hsel hsend hr =>
    obtain ⟨rfl, rfl⟩ := Prod.mk.inj hx
    obtain ⟨sent, n, hposted, hown, hn, ⟨x, hlast, -, hp⟩, -, hrel⟩ := sends_selected ho hsel hsend
    obtain ⟨hm, rfl⟩ := Connection.selectCatalog_error hr
    rw [hn] at hm
    rw [outcomeClosing] at hrel
    obtain ⟨q, hq⟩ := hp p rfl
    refine ⟨sent, [s.catalog], by simp [hn], by simp [hn], by simp [hn], hown, hposted,
      .stranded hne hm (by simp [hn]) hlast ?_ ?_, by simp⟩
    · rw [Connection.strandingError, hq]
    · rw [Context.released_release, Context.released_log, hrel]

end Statement

end SqlSession
