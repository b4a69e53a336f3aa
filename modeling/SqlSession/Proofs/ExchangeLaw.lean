import SqlSession.Proofs.Exchange

/-!
# What an exchange keeps

An exchange is made of events, of sending a directive and a text, and of selecting catalogs.
`Statement.ExchangeLaw` says of a relation between surroundings that each of these keeps it, and
`ExchangeLaw.exchange` gives it for a whole exchange, whatever that comes to.
-/

namespace SqlSession.Statement

/-- A relation between the surroundings before and after, which every part of an exchange of the
statement keeps. -/
structure ExchangeLaw (s : Statement) (R : Context → Context → Prop) : Prop where
  trans {c d e : Context} : R c d → R d e → R c e
  events (c : Context) (es : List Event) : R c (c.noteAll es)
  /-- A directive is logged, counted and sent. -/
  directive (c : Context) (directive : String) :
    R c ((s.announcing c directive).send (limitCommand directive)).2
  text (c : Context) (text : String) (cap : Int32) (f : Shape) :
    R c (c.send (command text cap f)).2
  select {c : Context} {k : Connection} {name : String}
    (h : c.connection.selectCatalog name = .ok k) : R c { c with connection := k }

namespace ExchangeLaw

variable {s : Statement} {R : Context → Context → Prop}

/-- Sending a text with its directive keeps the law. -/
theorem sendLimited (law : s.ExchangeLaw R) (c : Context) (text : String) (f : Shape) :
    R c (s.sendLimited c text f).2 := by
  have hx := s.sendLimited_sending c text f
  generalize s.sendLimited c text f = x at hx ⊢
  have announced {d : String} {outcome : Except SqlError Packet} {c' : Context}
      (hd : (s.announcing c d).send (limitCommand d) = (outcome, c')) : R c c' := by
    have hdirective := law.directive c d
    rw [hd] at hdirective
    exact hdirective
  cases hx with
  | bare _ => exact law.text c _ _ _
  | withheld _ hd => exact announced hd
  | directed _ hd => exact law.trans (law.trans (announced hd) (law.events _ _)) (law.text _ _ _ _)

/-- The exchange of a text in the catalog of the statement keeps the law. -/
theorem exchange (law : s.ExchangeLaw R) (c : Context) (text : String) (f : Shape) :
    R c (s.exchangeInCatalog c text f).2 := by
  have hx := s.exchangeInCatalog_exchange c text f
  generalize s.exchangeInCatalog c text f = x at hx ⊢
  -- behind the change to the catalog of the statement the text is sent
  have inside {k : Connection} {outcome : Except SqlError Packet} {c' : Context}
      (hs : c.connection.selectCatalog s.catalog = .ok k)
      (hsend : s.sendLimited { c with connection := k } text f = (outcome, c')) : R c c' := by
    have hl := law.sendLimited { c with connection := k } text f
    rw [hsend] at hl
    exact law.trans (law.select hs) hl
  cases hx with
  | inPlace _ => exact law.sendLimited c text f
  | barred _ _ => exact law.events c []
  | restored _ hs hsend hr => exact law.trans (inside hs hsend) (law.select hr)
  | strandedError _ hs hsend _ => exact law.trans (inside hs hsend) (law.events _ _)
  | strandedPacket _ hs hsend _ =>
    exact law.trans (law.trans (inside hs hsend) (law.events _ _)) (law.events _ _)

end ExchangeLaw

end SqlSession.Statement
