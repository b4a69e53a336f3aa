import SqlSession.Packet.Release

/-!
# Walking over the rows of a result

Of all that was asked of an open result, only the number of moves of its cursor counts for what it
replies next: the move after `k` moves reaches a row if there are more than `k`, and between two
moves the cells of one row can be read, as often as one likes.
-/

namespace SqlSession

/-- Where the cursor is after a number of moves: before the first row, on a row, or behind the last
one. -/
def RowTable.cursorAfter (t : RowTable) : Nat → Option Nat
  | 0 => none
  | k + 1 => some (min k t.rows.length)

/-- The row that the cursor is on after a number of moves, if it is on one. -/
def RowTable.rowAfter? (t : RowTable) : Nat → Option (List Cell)
  | 0 => none
  | k + 1 => t.rows[k]?

theorem RowTable.rowAfter?_eq_none_iff {t : RowTable} {k : Nat} :
    t.rowAfter? k = none ↔ k = 0 ∨ t.rows.length < k := by
  cases k with
  | zero => simp [rowAfter?]
  | succ j =>
    rw [rowAfter?, List.getElem?_eq_none_iff]
    omega

namespace Packet

/-- The packet after requests. -/
def after (p : Packet) (qs : List Request) : Packet := qs.foldl (fun p q ↦ (p.serve q).packet) p

/-- The packet is open over the table, and its cursor was moved so many times. -/
structure Moved (p : Packet) (t : RowTable) (k : Nat) : Prop where
  rows : p.head.rows = some t
  closed : p.head.closed = false
  cursor : p.head.cursor = t.cursorAfter k

/-- The cells of the current row, read by column up to the first column that is refused. -/
structure ReadsRow (p : Packet) (cells : List Cell) : Prop where
  cell : ∀ i c, cells[i]? = some c → (p.serve (.bytes (i + 1))).reply = .ok (.bytes c)
  last : ∃ e, (p.serve (.bytes (cells.length + 1))).reply = .error e

/-- The rows that a reader collects who moves the cursor as long as there is a further row. -/
inductive Walk : Packet → List (List Cell) → Prop
  | done {p : Packet} (h : (p.serve .next).reply = .ok (.flag false)) : Walk p []
  | row {p : Packet} {cells : List Cell} {rest : List (List Cell)}
      (h : (p.serve .next).reply = .ok (.flag true))
      (hcells : (p.serve .next).packet.ReadsRow cells) (hrest : Walk (p.serve .next).packet rest) :
    Walk p (cells :: rest)

namespace Moved

variable {p : Packet} {t : RowTable} {k : Nat}

theorem ensureOpen (h : p.Moved t k) : p.head.ensureOpen = .ok () := by
  rw [Response.ensureOpen, h.closed]
  rfl

theorem nextRow (h : p.Moved t k) : min p.head.nextRow t.rows.length = min k t.rows.length := by
  rw [Response.nextRow, h.cursor]
  cases k with
  | zero => rfl
  | succ k =>
    dsimp only [RowTable.cursorAfter]
    omega

/-- A move reaches a row, or stays behind the last one. -/
theorem advance (h : p.Moved t k) :
    p.head.advance = .ok (decide (k + 1 ≤ t.rows.length),
      { p.head with cursor := t.cursorAfter (k + 1) }) := by
  have hcount : p.head.rowCount = t.rows.length := by
    rw [Response.rowCount, h.rows]
  have hmin := h.nextRow
  have hflag : decide (p.head.nextRow < t.rows.length) = decide (k + 1 ≤ t.rows.length) := by
    apply decide_eq_decide.2
    omega
  rw [Response.advance, h.ensureOpen, hcount, hmin, hflag]
  rfl

theorem serve_next (h : p.Moved t k) :
    (p.serve .next).reply = .ok (.flag (decide (k + 1 ≤ t.rows.length))) ∧
      (p.serve .next).packet.Moved t (k + 1) := by
  rw [serve, h.advance]
  exact ⟨rfl, h.rows, h.closed, rfl⟩

/-- What is not a move leaves the packet as it is but for its warnings. -/
theorem serve_still (p : Packet) {q : Request} (hnext : q ≠ .next) (hclose : q ≠ .close) :
    (p.serve q).packet = p ∨ q = .takeWarnings ∧ (p.serve q).packet = p.withoutWarnings := by
  cases q with
  | next => exact absurd rfl hnext
  | close => exact absurd rfl hclose
  | takeWarnings => exact .inr ⟨rfl, rfl⟩
  | _ => exact .inl rfl

/-- A request moves the cursor once or not at all. -/
theorem served (h : p.Moved t k) {q : Request} (hq : q ≠ .close) :
    (p.serve q).packet.Moved t (k + [q].count .next) := by
  by_cases hnext : q = .next
  · subst hnext
    exact h.serve_next.2
  · have hcount : [q].count .next = 0 := by simp [hnext]
    rw [hcount]
    rcases serve_still p hnext hq with heq | ⟨-, heq⟩
    · rw [heq]
      exact h
    · rw [heq]
      exact ⟨h.rows, h.closed, h.cursor⟩

/-- Requests move the cursor as often as there are moves among them. -/
theorem after (h : p.Moved t k) {qs : List Request} (hq : ∀ q ∈ qs, q ≠ .close) :
    (p.after qs).Moved t (k + qs.count .next) := by
  induction qs generalizing p k with
  | nil => exact h
  | cons q r ih =>
    obtain ⟨hhead, hrest⟩ := List.forall_mem_cons.1 hq
    have hr := ih (h.served hhead) hrest
    rw [Nat.add_assoc, ← List.count_append] at hr
    exact hr

/-- The cursor is on the row with the number of the moves. -/
theorem currentRow? (h : p.Moved t k) : p.head.currentRow? t = t.rowAfter? k := by
  rw [Response.currentRow?, h.cursor]
  cases k with
  | zero => rfl
  | succ j =>
    dsimp only [RowTable.cursorAfter, RowTable.rowAfter?, Option.bind_some]
    by_cases hj : j < t.rows.length
    · rw [Nat.min_eq_left (by omega)]
    · rw [Nat.min_eq_right (by omega), List.getElem?_eq_none (by omega),
        List.getElem?_eq_none (by omega)]

theorem cell_outside (h : p.Moved t k) (hrow : t.rowAfter? k = none) (c : Nat) :
    p.head.cell c = .error (.illegalState .noCurrentRow) := by
  rw [Response.cell, h.ensureOpen, h.rows]
  simp only [h.currentRow?, hrow]
  rfl

variable {row : List Cell}

theorem cell_row (h : p.Moved t k) (hrow : t.rowAfter? k = some row) {i : Nat} {c : Cell}
    (hc : row[i]? = some c) : p.head.cell (i + 1) = .ok c := by
  rw [Response.cell, h.ensureOpen, h.rows]
  simp only [h.currentRow?, hrow, hc]
  rfl

theorem cell_column (h : p.Moved t k) (hrow : t.rowAfter? k = some row) {c : Nat}
    (hc : c = 0 ∨ row.length < c) :
    p.head.cell c = .error (.invalidArgument (.columnIndex c row.length)) := by
  rw [Response.cell, h.ensureOpen, h.rows]
  cases c with
  | zero =>
    simp only [h.currentRow?, hrow]
    rfl
  | succ i =>
    have hi : row[i]? = none := List.getElem?_eq_none (by omega)
    simp only [h.currentRow?, hrow, hi]
    rfl

end Moved

/-- What an open packet over a table replies after its cursor was moved so many times. -/
structure Delivers (p : Packet) (t : RowTable) (k : Nat) : Prop where
  /-- The next move reaches a row as long as there is a further one. -/
  next : (p.serve .next).reply = .ok (.flag (decide (k + 1 ≤ t.rows.length)))
  /-- On a row, a column of that row gives its cell. -/
  cell : ∀ j row, k = j + 1 → t.rows[j]? = some row → ∀ i c, row[i]? = some c →
    (p.serve (.bytes (i + 1))).reply = .ok (.bytes c)
  /-- On a row, every other column is refused. -/
  column : ∀ j row, k = j + 1 → t.rows[j]? = some row → ∀ c, c = 0 ∨ row.length < c →
    (p.serve (.bytes c)).reply = .error (.invalidArgument (.columnIndex c row.length))
  /-- Before the first row and behind the last one nothing can be read. -/
  outside : k = 0 ∨ t.rows.length < k → ∀ c,
    (p.serve (.bytes c)).reply = .error (.illegalState .noCurrentRow)
  /-- What is refused as bytes is refused as a text and as an integer. -/
  refused : ∀ c e, (p.serve (.bytes c)).reply = .error e →
    (p.serve (.text c)).reply = .error e ∧ (p.serve (.integer c)).reply = .error e
  /-- Only moves have an effect, but for taking the warnings. -/
  still : ∀ q, q ≠ .next → q ≠ .close →
    (p.serve q).packet = p ∨ q = .takeWarnings ∧ (p.serve q).packet = p.withoutWarnings
  /-- A walk from here collects the rows that were not reached yet, in their order. -/
  walk : ∀ rows, p.Walk rows ↔ rows = t.rows.drop k

variable {p : Packet} {t : RowTable} {k : Nat}

theorem serve_bytes_ok {c : Nat} {v : Cell} :
    (p.serve (.bytes c)).reply = .ok (.bytes v) ↔ p.head.cell c = .ok v := by
  rw [serve]
  cases p.head.cell c <;> simp [Except.map]

theorem serve_bytes_error {c : Nat} {e : SqlError} :
    (p.serve (.bytes c)).reply = .error e ↔ p.head.cell c = .error e := by
  rw [serve]
  cases p.head.cell c <;> simp [Except.map]

/-- The cells that are read of the current row are those of the row. -/
theorem Moved.readsRow_iff {row : List Cell} (h : p.Moved t k) (hrow : t.rowAfter? k = some row)
    (cells : List Cell) : p.ReadsRow cells ↔ cells = row := by
  constructor
  · intro hr
    obtain ⟨e, he⟩ := hr.last
    have hshort : row.length ≤ cells.length := by
      apply Nat.le_of_not_lt
      intro hlt
      rw [serve_bytes_error, h.cell_row hrow (List.getElem?_eq_getElem hlt)] at he
      cases he
    apply List.ext_getElem?
    intro i
    by_cases hi : i < cells.length
    · have hread := serve_bytes_ok.1 (hr.cell i cells[i] (List.getElem?_eq_getElem hi))
      have hlt : i < row.length := by
        apply Nat.lt_of_not_le
        intro hle
        rw [h.cell_column hrow (.inr (by omega))] at hread
        cases hread
      rw [h.cell_row hrow (List.getElem?_eq_getElem hlt)] at hread
      rw [List.getElem?_eq_getElem hi, List.getElem?_eq_getElem hlt, Except.ok.inj hread]
    · rw [List.getElem?_eq_none (by omega), List.getElem?_eq_none (by omega)]
  · rintro rfl
    have hlast := serve_bytes_error.2 (h.cell_column hrow (.inr (Nat.lt_succ_self cells.length)))
    exact ⟨fun i c hi ↦ serve_bytes_ok.2 (h.cell_row hrow hi), _, hlast⟩

/-- A walk collects the rows that were not reached yet. -/
theorem Moved.walk_iff (h : p.Moved t k) (rows : List (List Cell)) :
    p.Walk rows ↔ rows = t.rows.drop k := by
  constructor
  · intro hw
    induction hw generalizing k with
    | done hnext =>
      rw [h.serve_next.1] at hnext
      have hk : ¬k + 1 ≤ t.rows.length := by simpa using hnext
      exact (List.drop_eq_nil_of_le (by omega)).symm
    | row hnext hcells _ ih =>
      rw [h.serve_next.1] at hnext
      have hk : k + 1 ≤ t.rows.length := by simpa using hnext
      have hrow := List.getElem?_eq_getElem hk
      rw [(h.serve_next.2.readsRow_iff hrow _).1 hcells, ih h.serve_next.2,
        List.drop_eq_getElem_cons hk]
  · rintro rfl
    -- as many rows are left to reach as the walk has steps
    induction hn : t.rows.length - k generalizing p k with
    | zero =>
      rw [List.drop_eq_nil_of_le (by omega)]
      refine .done ?_
      rw [h.serve_next.1, decide_eq_false (by omega)]
    | succ n ih =>
      have hk : k < t.rows.length := by omega
      rw [List.drop_eq_getElem_cons hk]
      refine .row ?_ ((h.serve_next.2.readsRow_iff (List.getElem?_eq_getElem hk) _).2 rfl)
        (ih h.serve_next.2 (by omega))
      rw [h.serve_next.1, decide_eq_true (by omega)]

/-- The number of moves decides what an open packet replies. -/
theorem Moved.delivers (h : p.Moved t k) : p.Delivers t k where
  next := h.serve_next.1
  cell := by
    rintro j row rfl hrow i c hi
    exact serve_bytes_ok.2 (h.cell_row hrow hi)
  column := by
    rintro j row rfl hrow c hc
    exact serve_bytes_error.2 (h.cell_column hrow hc)
  outside hk c := serve_bytes_error.2 (h.cell_outside (RowTable.rowAfter?_eq_none_iff.2 hk) c)
  refused c e he := by
    rw [serve_bytes_error] at he
    rw [serve, serve, Response.cellInt, Response.cellText, he]
    exact ⟨rfl, rfl⟩
  still _ hnext hclose := Moved.serve_still p hnext hclose
  walk := h.walk_iff

/-- Whatever is asked of an open result with rows, in any order, the cursor delivers the rows
exactly: what the result replies depends on the number of moves among the requests alone. -/
theorem rows_delivered {p : Packet} {t : RowTable} (hrows : p.head.rows = some t)
    (hopen : p.head.closed = false) (hcursor : p.head.cursor = none) {qs : List Request}
    (hq : ∀ q ∈ qs, q ≠ .close) : (p.after qs).Delivers t (qs.count .next) := by
  have hstart : p.Moved t 0 := ⟨hrows, hopen, hcursor⟩
  have hmoved := hstart.after hq
  rw [Nat.zero_add] at hmoved
  exact hmoved.delivers

/-- The rows are ragged, the columns have one name, and the second row has no cells. -/
theorem rows_delivered_ragged :
    let t : RowTable := ⟨[⟨"v", .varchar⟩, ⟨"V", .integer⟩], [[some [65], none], [], [none]]⟩
    let p : Packet := ⟨.ofRows t, []⟩
    let qs : List Request := [.bytes 1, .next, .find "V", .integer 1, .takeWarnings, .next, .text 1]
    p.head.rows = some t ∧ p.head.closed = false ∧ p.head.cursor = none ∧ (∀ q ∈ qs, q ≠ .close) ∧
      qs.count .next = 2 ∧ (p.after qs).Delivers t 2 := by
  intro t p qs
  have hq : ∀ q ∈ qs, q ≠ .close := by decide
  exact ⟨rfl, rfl, rfl, hq, rfl, rows_delivered rfl rfl rfl hq⟩

end Packet

end SqlSession
