import SqlSession.Proofs.ClauseExpansion

/-!
# Literals

The quoted segments of a text are its literals. The expansion of clauses keeps them: those of the
expanded text are those of the given one, in their order and to the character. A text whose opening
braces all stand in literals is expanded to itself.
-/

namespace SqlSession.Sql

/-- What follows an opening quote up to the same quote again, and the text behind that. A backslash
protects the character that follows it. A quote that nothing closes takes all of the text. -/
def splitQuoted (quote : Char) : List Char → List Char × List Char
  | [] => ([], [])
  | '\\' :: c :: r => ('\\' :: c :: (splitQuoted quote r).1, (splitQuoted quote r).2)
  | c :: r =>
    if c = quote then ([c], r) else (c :: (splitQuoted quote r).1, (splitQuoted quote r).2)

/-- The two parts are the text. -/
theorem splitQuoted_append (quote : Char) (s : List Char) :
    (splitQuoted quote s).1 ++ (splitQuoted quote s).2 = s := by
  induction s using splitQuoted.induct quote with
  | case1 => rfl
  | case2 c r ih => simpa [splitQuoted] using ih
  | case3 r h => simp [splitQuoted]
  | case4 c r h hne ih => simpa [splitQuoted, hne] using ih

/-- A piece of a text. -/
inductive Piece where
  /-- A character outside of quotes. -/
  | plain (c : Char)
  /-- A quoted segment with the quotes around it. -/
  | quoted (segment : List Char)
  deriving DecidableEq

namespace Piece

/-- The text of a piece. -/
def text : Piece → List Char
  | plain c => [c]
  | quoted segment => segment

/-- The segment, if the piece is quoted. -/
def literal? : Piece → Option (List Char)
  | plain _ => none
  | quoted segment => some segment

/-- The character, if the piece is not quoted. -/
def plain? : Piece → Option Char
  | plain c => some c
  | quoted _ => none

end Piece

/-- The pieces of a text from left to right. -/
def pieces : List Char → List Piece
  | [] => []
  | c :: r =>
    if isQuote c then .quoted (c :: (splitQuoted c r).1) :: pieces (splitQuoted c r).2
    else .plain c :: pieces r
termination_by s => s.length
decreasing_by
  · have h := congrArg List.length (splitQuoted_append c r)
    rw [List.length_append] at h
    simp only [List.length_cons]
    omega
  · simp

/-- The pieces are the text. -/
theorem flatMap_pieces (s : List Char) : (pieces s).flatMap Piece.text = s := by
  induction s using pieces.induct with
  | case1 => rw [pieces]; rfl
  | case2 c r hq ih =>
    rw [pieces, if_pos hq, List.flatMap_cons, ih, Piece.text, List.cons_append, splitQuoted_append]
  | case3 c r hq ih =>
    rw [pieces, if_neg hq, List.flatMap_cons, ih]
    rfl

/-- The quoted segments of a text. -/
def literals (s : List Char) : List (List Char) := (pieces s).filterMap Piece.literal?

/-- The characters of a text outside of its quoted segments. -/
def unquoted (s : List Char) : List Char := (pieces s).filterMap Piece.plain?

namespace Quoting

/-- The state behind a text. -/
def after (q : Quoting) (s : List Char) : Quoting := s.foldl next q

/-- The literals of a text with the character in front of it. -/
def gather (q : Quoting) (c : Char) (l : List (List Char)) : List (List Char) :=
  if q.next c = outside then if q = outside then l else [c] :: l
  else (c :: l.headD []) :: l.tail

/-- The literals from a position with the given quoting on. Inside of a quote, the first one is what
is left of its literal. -/
def literalsFrom (q : Quoting) : List Char → List (List Char)
  | [] => if q = outside then [] else [[]]
  | c :: r => q.gather c ((q.next c).literalsFrom r)

theorem after_append (q : Quoting) (a b : List Char) : q.after (a ++ b) = (q.after a).after b :=
  List.foldl_append

/-- A scan that counts braces stands to the quotes as one that does not. -/
theorem after_eq_run (s : Scan) (text : List Char) :
    (s.run text).quoting = s.quoting.after text := by
  induction text generalizing s with
  | nil => rfl
  | cons c r ih =>
    rw [Scan.run, List.foldl_cons, ← Scan.run, ih, Scan.quoting_next]
    rfl

/-- Inside of a quote there is a literal at hand. -/
theorem literalsFrom_ne_nil {q : Quoting} (h : q ≠ outside) (s : List Char) :
    q.literalsFrom s ≠ [] := by
  cases s with
  | nil => simp [literalsFrom, h]
  | cons c r =>
    rw [literalsFrom, gather, if_neg h]
    split <;> exact List.cons_ne_nil _ _

/-- Behind a text that ends outside of quotes come the literals of what follows. -/
theorem literalsFrom_append {q : Quoting} {a : List Char} (h : q.after a = outside)
    (b : List Char) : q.literalsFrom (a ++ b) = q.literalsFrom a ++ outside.literalsFrom b := by
  induction a generalizing q with
  | nil =>
    have hq : q = outside := h
    rw [hq]
    rfl
  | cons c a ih =>
    rw [List.cons_append, literalsFrom, ih h, literalsFrom]
    by_cases hn : q.next c = outside
    · simp only [gather, if_pos hn]
      split <;> rfl
    · cases hl : (q.next c).literalsFrom a with
      | nil => exact absurd hl (literalsFrom_ne_nil hn a)
      | cons x l => simp [gather, hn]

/-- A text without quotes leaves a scan outside of them. -/
theorem after_unquoted {a : List Char} (h : ∀ c ∈ a, isQuote c = false) :
    outside.after a = outside := by
  induction a with
  | nil => rfl
  | cons c a ih =>
    obtain ⟨hc, ha⟩ := List.forall_mem_cons.1 h
    rw [after, List.foldl_cons, ← after, next, if_neg (by simp [hc])]
    exact ih ha

/-- A text without quotes has no literals. -/
theorem literalsFrom_unquoted {a : List Char} (h : ∀ c ∈ a, isQuote c = false) :
    outside.literalsFrom a = [] := by
  induction a with
  | nil => rfl
  | cons c a ih =>
    obtain ⟨hc, ha⟩ := List.forall_mem_cons.1 h
    have hn : outside.next c = outside := if_neg (by simp [hc])
    rw [literalsFrom, hn, ih ha, gather, if_pos hn]
    rfl

/-- A text without quotes in front adds no literals. -/
theorem literalsFrom_behind {a : List Char} (h : ∀ c ∈ a, isQuote c = false) (b : List Char) :
    outside.literalsFrom (a ++ b) = outside.literalsFrom b := by
  rw [literalsFrom_append (after_unquoted h), literalsFrom_unquoted h, List.nil_append]

/-- A quote closes itself. -/
theorem next_quote {quote : Char} (hq : isQuote quote = true) :
    (inside quote).next quote = outside := by
  have hne : quote ≠ '\\' := by
    rintro rfl
    exact absurd hq (by decide)
  simp [next, hne]

theorem next_inside {quote c : Char} (hb : c ≠ '\\') (hc : c ≠ quote) :
    (inside quote).next c = inside quote := by
  simp [next, hb, hc]

/-- Inside of a quote the rest of its literal comes first. -/
theorem literalsFrom_inside {quote : Char} (hq : isQuote quote = true) (s : List Char) :
    (inside quote).literalsFrom s =
      (splitQuoted quote s).1 :: outside.literalsFrom (splitQuoted quote s).2 := by
  induction s using splitQuoted.induct quote with
  | case1 => rfl
  | case2 c r ih =>
    have hshield : (inside quote).next '\\' = shielded quote := rfl
    have hback : (shielded quote).next c = inside quote := rfl
    rw [literalsFrom, hshield, literalsFrom, hback, ih, splitQuoted]
    simp [gather, hshield, hback]
  | case3 r h =>
    rw [literalsFrom, next_quote hq, gather, if_pos (next_quote hq), if_neg (by simp), splitQuoted,
      if_pos rfl]
    exact h
  | case4 c r h hc ih =>
    rw [splitQuoted, if_neg hc]
    · by_cases hback : c = '\\'
      · -- a backslash at the end protects nothing
        cases r with
        | nil =>
          rw [hback]
          rfl
        | cons c' r' => exact (h c' r' hback rfl).elim
      · rw [literalsFrom, next_inside hback hc, ih, gather, if_neg (by simp [next_inside hback hc])]
        rfl
    · exact h

end Quoting

/-- The literals of a text are those that a scan from outside of quotes finds. -/
theorem literals_eq (s : List Char) : literals s = Quoting.outside.literalsFrom s := by
  unfold literals
  induction s using pieces.induct with
  | case1 => rw [pieces]; rfl
  | case2 c r hq ih =>
    have hn : Quoting.outside.next c = .inside c := if_pos hq
    rw [pieces, if_pos hq, List.filterMap_cons, Piece.literal?, ih, Quoting.literalsFrom, hn,
      Quoting.literalsFrom_inside hq, Quoting.gather, hn]
    rfl
  | case3 c r hq ih =>
    have hn : Quoting.outside.next c = .outside := if_neg hq
    rw [pieces, if_neg hq, List.filterMap_cons, Piece.literal?, ih, Quoting.literalsFrom, hn,
      Quoting.gather, hn]
    rfl

namespace Quoting

/-- A balanced text ends outside of quotes. -/
theorem after_balanced {s : List Char} (h : Balanced s) : outside.after s = outside := by
  have hrun := after_eq_run {} s
  rw [h.run] at hrun
  exact hrun.symm

/-- Behind the literals of a clause come those of what follows. -/
theorem literalsFrom_clause {inner : List Char} (h : Balanced inner) (u : List Char) :
    outside.literalsFrom ('\x7b' :: (inner ++ '\x7d' :: u)) =
        outside.literalsFrom inner ++ outside.literalsFrom u ∧
      outside.after ('\x7b' :: (inner ++ '\x7d' :: u)) = outside.after u := by
  constructor
  · change outside.literalsFrom (inner ++ '\x7d' :: u) = _
    rw [literalsFrom_append (after_balanced h)]
    rfl
  · change outside.after (inner ++ '\x7d' :: u) = _
    rw [after_append, after_balanced h]
    rfl

/-- What is left of a clause has all its literals. -/
theorem literalsFrom_rest {inner rest : List Char} {k : Clause} (h : Balanced inner)
    (hr : Clause.read? inner = some (k, rest)) :
    outside.literalsFrom inner = outside.literalsFrom rest := by
  obtain ⟨a, b, rfl, ha, hb⟩ := read?_split hr
  rw [literalsFrom_behind fun c hc ↦ isQuote_of_isMark (ha c hc),
    literalsFrom_append (after_balanced (h.rest hr)),
    literalsFrom_unquoted fun c hc ↦ isQuote_of_isMark (hb c hc), List.append_nil]

/-- The words that stand for keywords hold no quotes. -/
theorem unquoted_lead (k : Clause) : ∀ c ∈ k.lead, isQuote c = false := by
  have hany : k.lead.any isQuote = false := by cases k <;> decide
  exact fun c hc ↦ Bool.eq_false_iff.2 (List.any_eq_false.1 hany c hc)

end Quoting

open Quoting in
/-- The expansion keeps the literals of a text, and ends inside of a quote where the text does. -/
theorem literalsFrom_expandFrom {q : Quoting} {s t : List Char} (h : expandFrom q s = .ok t) :
    q.literalsFrom t = q.literalsFrom s ∧ q.after t = q.after s := by
  replace h := expands_of_expandFrom h
  induction h with
  | nil q => exact ⟨rfl, rfl⟩
  | copied _ _ ih =>
    obtain ⟨hliterals, hafter⟩ := ih
    rw [literalsFrom, hliterals, literalsFrom]
    exact ⟨rfl, hafter⟩
  | @unknown inner rest t hb _ _ ih =>
    obtain ⟨hliterals, hafter⟩ := ih
    obtain ⟨hgiven, hgivenAfter⟩ := literalsFrom_clause hb rest
    obtain ⟨hkept, hkeptAfter⟩ := literalsFrom_clause hb t
    rw [hgiven, hgivenAfter, hkept, hkeptAfter, hliterals, hafter]
    exact ⟨rfl, rfl⟩
  | @known inner rest body b t k hb hc _ _ ihBody ih =>
    obtain ⟨hliterals, hafter⟩ := ih
    obtain ⟨hgiven, hgivenAfter⟩ := literalsFrom_clause hb rest
    obtain ⟨hbody, hbodyAfter⟩ := ihBody
    -- the expanded rest of the clause ends outside of quotes as the rest does
    rw [after_balanced (Balanced.rest hb hc)] at hbodyAfter
    have hlead := unquoted_lead k
    constructor
    · rw [hgiven, literalsFrom_rest hb hc, ← hbody, ← hliterals, literalsFrom_behind hlead,
        literalsFrom_append hbodyAfter]
    · rw [hgivenAfter, ← hafter, after_append, after_unquoted hlead, after_append, hbodyAfter]

/-- Inside of a quote the rest of its literal is copied. -/
theorem expandFrom_inside {quote : Char} (hq : isQuote quote = true) (s : List Char) :
    expandFrom (.inside quote) s =
      (expandFrom .outside (splitQuoted quote s).2).map ((splitQuoted quote s).1 ++ ·) := by
  have copied (q : Quoting) (hn : q ≠ .outside) (c : Char) (r : List Char) :
      expandFrom q (c :: r) = (expandFrom (q.next c) r).map (c :: ·) := by
    rw [expandFrom, if_neg fun hopen ↦ hn hopen.1]
  induction s using splitQuoted.induct quote with
  | case1 =>
    rw [splitQuoted, expandFrom, expandFrom]
    rfl
  | case2 c r ih =>
    have hshield : (Quoting.inside quote).next '\\' = .shielded quote := rfl
    have hback : (Quoting.shielded quote).next c = .inside quote := rfl
    rw [copied _ (by simp), hshield, copied _ (by simp), hback, ih, splitQuoted]
    cases expandFrom .outside (splitQuoted quote r).2 <;> rfl
  | case3 r h =>
    rw [copied _ (by simp), Quoting.next_quote hq, splitQuoted, if_pos rfl]
    · rfl
    · exact h
  | case4 c r h hc ih =>
    rw [splitQuoted, if_neg hc]
    · by_cases hback : c = '\\'
      · cases r with
        | nil =>
          rw [copied _ (by simp), splitQuoted, expandFrom, expandFrom]
          rfl
        | cons c' r' => exact (h c' r' hback rfl).elim
      · rw [copied _ (by simp), Quoting.next_inside hback hc, ih]
        cases expandFrom .outside (splitQuoted quote r).2 <;> rfl
    · exact h

/-- A text whose opening braces are all quoted is expanded to itself. -/
theorem expand_of_quoted {s : List Char} (h : '\x7b' ∉ unquoted s) : expand s = .ok s := by
  unfold expand
  unfold unquoted at h
  induction s using pieces.induct with
  | case1 => rw [expandFrom]
  | case2 c r hq ih =>
    have hopen : c ≠ '\x7b' := by
      rintro rfl
      exact absurd hq (by decide)
    have hn : Quoting.outside.next c = .inside c := if_pos hq
    rw [pieces, if_pos hq, List.filterMap_cons, Piece.plain?] at h
    rw [expandFrom, if_neg fun hx ↦ hopen hx.2, hn, expandFrom_inside hq, ih h, Except.map,
      splitQuoted_append]
    rfl
  | case3 c r hq ih =>
    have hn : Quoting.outside.next c = .outside := if_neg hq
    rw [pieces, if_neg hq, List.filterMap_cons, Piece.plain?, List.mem_cons, not_or] at h
    rw [expandFrom, if_neg fun hx ↦ h.1 hx.2.symm, hn, ih h.2]
    rfl

/-- The expansion keeps the literals of a text, to the character and in their order, and leaves a
text alone whose opening braces all stand in literals. The literals are the quoted ones of the
pieces that a text consists of. -/
theorem expandText_literals :
    (∀ sql text : String, expandText sql = .ok text →
      literals text.toList = literals sql.toList) ∧
    (∀ sql : String, '\x7b' ∉ unquoted sql.toList → expandText sql = .ok sql) ∧
    ∀ sql : String, (pieces sql.toList).flatMap Piece.text = sql.toList := by
  refine ⟨fun sql text h ↦ ?_, fun sql h ↦ ?_, fun sql ↦ flatMap_pieces sql.toList⟩
  · obtain ⟨t, ht, rfl⟩ := ok_of_map h
    rw [String.toList_ofList, literals_eq, literals_eq]
    exact (literalsFrom_expandFrom ht).1
  · rw [expandText, expand_of_quoted h, Except.map, String.ofList_toList]

/-- Literals in nested clauses, in one that is not known, and one that nothing closes. -/
theorem expandText_literals_nested :
    let sql := "\x7bfn f('\x7d\\' ', \x7bts \"it's\"\x7d)\x7d \x7blimit '\x7b'\x7d '\x7bd"
    let text := "f('\x7d\\' ', \"it's\") \x7blimit '\x7b'\x7d '\x7bd"
    expandText sql = .ok text ∧ literals text.toList = literals sql.toList ∧
      literals sql.toList = ["'\x7d\\' '", "\"it's\"", "'\x7b'", "'\x7bd"].map String.toList ∧
      expandText "SELECT '\x7bd' \x7d" = .ok "SELECT '\x7bd' \x7d" := by
  intro sql text
  have h : expandText sql = .ok text := by decide +kernel
  exact ⟨h, expandText_literals.1 sql text h, by decide +kernel,
    expandText_literals.2.1 _ (by decide +kernel)⟩

end SqlSession.Sql
