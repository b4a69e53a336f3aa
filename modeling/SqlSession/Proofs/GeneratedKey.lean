import SqlSession.Proofs.RowCursor
import SqlSession.Session.Basic

/-!
# Generated keys as results

A generated key is shown as a result of one row with one column. The key that a caller reads from
there is the key that was generated, whatever else the caller asks of the result.
-/

namespace SqlSession

/-- Decimal texts are made of ASCII characters other than blanks. -/
theorem Decimal.plain_of_mem_render {n : Int} {c : Char} (h : c ∈ render n) :
    c.toNat < 128 ∧ Text.isBlank c = false := by
  have hdigit : c ∈ digits n.natAbs → c.toNat < 128 ∧ Text.isBlank c = false := by
    intro hc
    obtain ⟨k, hk, rfl⟩ := exists_of_mem_digits hc
    have hall : ∀ k < 10, (Char.ofNat (48 + k)).toNat < 128 ∧
        Text.isBlank (Char.ofNat (48 + k)) = false := by decide
    exact hall k hk
  unfold render at h
  split at h
  · rcases List.mem_cons.1 h with rfl | h
    · decide
    · exact hdigit h
  · exact hdigit h

/-- The table that shows a generated key. -/
def keyTable (key : Int64) : RowTable :=
  RowTable.single "GENERATED_KEY" .integer (Decimal.render key.toInt)

namespace Packet

/-- A caller finds the key in the packet, in one row that is reached by the first move of the
cursor, and nothing behind it, whatever else is asked of the packet in between. -/
structure YieldsKey (p : Packet) (key : Int64) : Prop where
  oneRow : p.head.rowCount = 1
  first : ∀ qs : List Request, (∀ q ∈ qs, q ≠ .close) → qs.count .next = 0 →
    ((p.after qs).serve .next).reply = .ok (.flag true)
  /-- The name of the column is found in either case of its letters. -/
  named : ∀ qs : List Request, (∀ q ∈ qs, q ≠ .close) → ∀ name : String,
    Text.lower name.toList = "generated_key".toList →
    ((p.after qs).serve (.find name)).reply = .ok (.column 1)
  value : ∀ qs : List Request, (∀ q ∈ qs, q ≠ .close) → qs.count .next = 1 →
    ((p.after qs).serve (.integer 1)).reply = .ok (.integer (some key))
  further : ∀ qs : List Request, (∀ q ∈ qs, q ≠ .close) → qs.count .next ≠ 0 →
    ((p.after qs).serve .next).reply = .ok (.flag false)

variable {p : Packet} {key : Int64} {k : Nat}

/-- Between the first two moves the key is read from its cell. -/
theorem Moved.integer_key (h : p.Moved (keyTable key) 1) :
    (p.serve (.integer 1)).reply = .ok (.integer (some key)) := by
  have hcell : p.head.cell 1 = .ok (some (Utf8.ofAscii (Decimal.render key.toInt))) :=
    h.cell_row (i := 0) rfl rfl
  have htext : Utf8.decode (Utf8.ofAscii (Decimal.render key.toInt)) = Decimal.render key.toInt :=
    Utf8.decode_ofAscii fun c hc ↦ (Decimal.plain_of_mem_render hc).1
  have htrim : Text.trim (Decimal.render key.toInt) = Decimal.render key.toInt :=
    Text.trim_of_unblank fun c hc ↦ (Decimal.plain_of_mem_render hc).2
  have hread : p.head.cellInt 1 = .ok (some key) := by
    have hcellText : p.head.cellText 1 = .ok (some (Decimal.render key.toInt)) := by
      rw [Response.cellText, hcell]
      exact congrArg (fun text ↦ Except.ok (some text)) htext
    rw [Response.cellInt, hcellText]
    dsimp only [Bind.bind, Except.bind]
    rw [htrim, Decimal.readInt64?_render]
    rfl
  rw [serve, hread]
  rfl

/-- The column of the key goes by its name, in whatever case. -/
theorem Moved.find_key (h : p.Moved (keyTable key) k) {name : String}
    (hname : Text.lower name.toList = "generated_key".toList) :
    (p.serve (.find name)).reply = .ok (.column 1) := by
  have hsame : Text.sameLetters "GENERATED_KEY".toList name.toList = true := by
    rw [Text.sameLetters, hname]
    decide
  have hindex : (keyTable key).columnNamed? name = some 0 := by
    have hcolumns : (keyTable key).columns = [⟨"GENERATED_KEY", .integer⟩] := rfl
    rw [RowTable.columnNamed?, hcolumns, List.findIdx?_cons, hsame]
    rfl
  rw [serve, Response.columnNumber, h.rows, Option.bind_some, hindex]
  rfl

/-- An open packet over the table of a key yields the key. -/
theorem Moved.yieldsKey (h : p.Moved (keyTable key) 0) : p.YieldsKey key where
  oneRow := by
    rw [Response.rowCount, h.rows]
    rfl
  first qs hq hnone := by
    have hmoved := h.after hq
    rw [hnone] at hmoved
    exact hmoved.serve_next.1
  named _ hq _ hname := (h.after hq).find_key hname
  value qs hq hone := by
    have hmoved := h.after hq
    rw [hone] at hmoved
    exact hmoved.integer_key
  further qs hq hsome := by
    rw [(h.after hq).serve_next.1]
    have hlen : (keyTable key).rows.length = 1 := rfl
    rw [hlen, decide_eq_false (by omega)]

/-- Every generated key can be read back from its result, and from the result that a statement which
can be used makes of the key of its last packet. -/
theorem generatedKey_readBack (key : Int64) :
    (⟨.ofKey key, []⟩ : Packet).YieldsKey key ∧
      ∀ (s : Statement) (c : Context), s.usable c = .ok () → s.lastKey = key →
        ∃ p, s.generatedKeys c = .ok p ∧ p.YieldsKey key := by
  constructor
  · exact Moved.yieldsKey ⟨rfl, rfl, rfl⟩
  · rintro s c hu rfl
    refine ⟨_, by rw [Statement.generatedKeys, Statement.read, hu]; rfl, ?_⟩
    exact Moved.yieldsKey ⟨rfl, rfl, rfl⟩

/-- The least key is read back, from its result and through a statement on a live connection. -/
theorem generatedKey_readBack_least :
    let t : Settings := { maxFieldSize := 16 }
    let s : Statement := { id := 1, catalog := "a", settings := t, lastKey := Int64.minValue }
    let c : Context := { connection := { catalog := "a" } }
    s.usable c = .ok () ∧ s.lastKey = Int64.minValue ∧
      (⟨.ofKey Int64.minValue, []⟩ : Packet).YieldsKey Int64.minValue ∧
      ∃ p, s.generatedKeys c = .ok p ∧ p.YieldsKey Int64.minValue := by
  intro t s c
  have hread := generatedKey_readBack Int64.minValue
  exact ⟨rfl, rfl, hread.1, hread.2 s c rfl rfl⟩

end Packet

end SqlSession
