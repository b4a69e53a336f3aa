import SqlSession.Sql.Escape

/-!
# Clauses and the scan

A text is balanced if each of its unquoted braces has a partner and no quote stays open. The text of
a clause is what is balanced up to a closing brace, and a scan that comes back to where it started
finds that brace. What is left of a clause once its keyword is read is balanced as well.
-/

namespace SqlSession.Sql

/-- The characters that a scan looks out for outside of quotes. -/
def isMark (c : Char) : Bool := isQuote c || c == '\x7b' || c == '\x7d'

/-- Neither quotes nor braces stand in the text. -/
def Plain (s : List Char) : Prop := ∀ c ∈ s, isMark c = false

instance (s : List Char) : Decidable (Plain s) :=
  List.decidableBAll (fun c ↦ isMark c = false) s

theorem Plain.append {a b : List Char} (ha : Plain a) (hb : Plain b) : Plain (a ++ b) :=
  List.forall_mem_append.2 ⟨ha, hb⟩

theorem isQuote_of_isMark {c : Char} (h : isMark c = false) : isQuote c = false := by
  simp only [isMark, Bool.or_eq_false_iff] at h
  exact h.1.1

/-- No mark is a blank. -/
theorem isMark_of_isBlank {c : Char} (h : Text.isBlank c = true) : isMark c = false := by
  cases hm : isMark c with
  | false => rfl
  | true =>
    simp only [isMark, isQuote, Bool.or_eq_true, beq_iff_eq] at hm
    have hno : Text.isBlank c = false := by
      rcases hm with (((rfl | rfl) | rfl) | rfl) | rfl <;> decide
    rw [hno] at h
    cases h

theorem plain_of_allBlank {s : List Char} (h : Text.allBlank s = true) : Plain s :=
  fun c hc ↦ isMark_of_isBlank (List.all_eq_true.1 h c hc)

/-- No mark is a letter. -/
theorem plain_of_lower {s : List Char} (h : Plain (Text.lower s)) : Plain s := by
  intro c hc
  have hlower : isMark c.toLower = false := h _ (List.mem_map.2 ⟨c, hc, rfl⟩)
  cases hm : isMark c with
  | false => rfl
  | true =>
    have hsame : c.toLower = c := by
      simp only [isMark, isQuote, Bool.or_eq_true, beq_iff_eq] at hm
      rcases hm with (((rfl | rfl) | rfl) | rfl) | rfl <;> decide
    rw [hsame, hm] at hlower
    cases hlower

namespace Quoting

/-- Inside a quote, shielded or not. -/
def Within : Quoting → Prop
  | outside => False
  | inside quote => isQuote quote = true
  | shielded quote => isQuote quote = true

/-- Outside of quotes, or inside one that a quote character has opened. -/
def Proper (q : Quoting) : Prop := q = outside ∨ q.Within

theorem Proper.next {q : Quoting} (h : q.Proper) (c : Char) : (q.next c).Proper := by
  cases q with
  | outside =>
    rw [Quoting.next]
    split
    · next hc => exact .inr hc
    · exact .inl rfl
  | inside quote =>
    have hq : isQuote quote = true := h.resolve_left (by simp)
    rw [Quoting.next]
    split
    · exact .inr hq
    · split
      · exact .inl rfl
      · exact .inr hq
  | shielded quote => exact .inr (h.resolve_left (by simp) : isQuote quote = true)

/-- What is no quote character ends no quote. -/
theorem Within.next {q : Quoting} (h : q.Within) {c : Char} (hc : isQuote c = false) :
    (q.next c).Within := by
  cases q with
  | outside => exact h.elim
  | inside quote =>
    rw [Quoting.next]
    split
    · exact h
    · rw [if_neg]
      · exact h
      · rintro rfl
        rw [show isQuote c = true from h] at hc
        cases hc
  | shielded quote => exact h

end Quoting

namespace Scan

/-- One character further, nothing where a brace closes that none has opened. -/
def next? (s : Scan) (c : Char) : Option Scan :=
  if s.quoting = .outside ∧ c = '\x7d' ∧ s.depth = 0 then none else some (s.next c)

/-- The state after a whole text in which no brace closes that none has opened. -/
def run? (s : Scan) (text : List Char) : Option Scan := text.foldlM next? s

theorem run?_cons (s : Scan) (c : Char) (r : List Char) :
    s.run? (c :: r) = (s.next? c).bind fun t ↦ t.run? r :=
  List.foldlM_cons ..

theorem run?_append (s : Scan) (a b : List Char) :
    s.run? (a ++ b) = (s.run? a).bind fun t ↦ t.run? b :=
  List.foldlM_append ..

/-- A character that is no unquoted brace leaves the depth alone. -/
theorem next_of_other {q : Quoting} {c : Char} (hc : ¬(q = .outside ∧ c = '\x7d'))
    (ho : ¬(q = .outside ∧ c = '\x7b')) (depth : Nat) :
    (⟨q, depth⟩ : Scan).next c = ⟨q.next c, depth⟩ := by
  cases q with
  | outside =>
    unfold next
    dsimp only
    rw [if_neg fun h ↦ ho ⟨rfl, h⟩, if_neg fun h ↦ hc ⟨rfl, h⟩]
  | inside quote => rfl
  | shielded quote => rfl

/-- Braces leave the quoting alone. -/
theorem quoting_next (s : Scan) (c : Char) : (s.next c).quoting = s.quoting.next c := by
  obtain ⟨q, depth⟩ := s
  by_cases hc : q = .outside ∧ c = '\x7d'
  · obtain ⟨rfl, rfl⟩ := hc
    rfl
  · by_cases ho : q = .outside ∧ c = '\x7b'
    · obtain ⟨rfl, rfl⟩ := ho
      rfl
    · rw [next_of_other hc ho]

theorem next_of_next? {s t : Scan} {c : Char} (h : s.next? c = some t) : t = s.next c := by
  unfold next? at h
  split at h
  · cases h
  · exact (Option.some.inj h).symm

theorem run_of_run? {s t : Scan} {text : List Char} (h : s.run? text = some t) :
    s.run text = t := by
  induction text generalizing s with
  | nil => exact Option.some.inj h
  | cons c r ih =>
    rw [run?_cons] at h
    obtain ⟨u, hu, hr⟩ := Option.bind_eq_some_iff.1 h
    rw [run, List.foldl_cons, ← run, ← next_of_next? hu]
    exact ih hr

/-- A text without marks leaves a scan outside of quotes where it is. -/
theorem run?_plain {s : List Char} (h : Plain s) (depth : Nat) :
    (⟨.outside, depth⟩ : Scan).run? s = some ⟨.outside, depth⟩ := by
  induction s with
  | nil => rfl
  | cons c r ih =>
    obtain ⟨hc, hr⟩ := List.forall_mem_cons.1 h
    simp only [isMark, Bool.or_eq_false_iff, beq_eq_false_iff_ne] at hc
    obtain ⟨⟨hquote, hopen⟩, hclose⟩ := hc
    have hnext : (⟨.outside, depth⟩ : Scan).next? c = some ⟨.outside, depth⟩ := by
      rw [next?, if_neg fun hx ↦ hclose hx.2.1,
        next_of_other (fun hx ↦ hclose hx.2) (fun hx ↦ hopen hx.2)]
      simp [Quoting.next, hquote]
    rw [run?_cons, hnext]
    exact ih hr

theorem run?_proper {s t : Scan} {text : List Char} (hs : s.quoting.Proper)
    (h : s.run? text = some t) : t.quoting.Proper := by
  induction text generalizing s with
  | nil => exact Option.some.inj h ▸ hs
  | cons c r ih =>
    rw [run?_cons] at h
    obtain ⟨u, hu, hr⟩ := Option.bind_eq_some_iff.1 h
    refine ih ?_ hr
    rw [next_of_next? hu, quoting_next]
    exact hs.next c

/-- A text without marks ends no quote. -/
theorem run?_within {s t : Scan} {text : List Char} (hp : Plain text) (hs : s.quoting.Within)
    (h : s.run? text = some t) : t.quoting.Within := by
  induction text generalizing s with
  | nil => exact Option.some.inj h ▸ hs
  | cons c r ih =>
    obtain ⟨hc, hr⟩ := List.forall_mem_cons.1 hp
    rw [run?_cons] at h
    obtain ⟨u, hu, hrun⟩ := Option.bind_eq_some_iff.1 h
    refine ih hr ?_ hrun
    rw [next_of_next? hu, quoting_next]
    exact hs.next (isQuote_of_isMark hc)

end Scan

/-- Each unquoted brace of the text has a partner, and no quote of it stays open. -/
def Balanced (s : List Char) : Prop := Scan.run? {} s = some {}

instance (s : List Char) : Decidable (Balanced s) := inferInstanceAs (Decidable (_ = _))

namespace Balanced

/-- A scan of a balanced text comes back to where it started. -/
theorem run {s : List Char} (h : Balanced s) : Scan.run {} s = {} := Scan.run_of_run? h

/-- A text without marks in front keeps a text balanced. -/
theorem behind {a s : List Char} (ha : Plain a) (h : Balanced s) : Balanced (a ++ s) := by
  rw [Balanced, Scan.run?_append, Scan.run?_plain ha]
  exact h

/-- Between texts without marks stands what is balanced itself. -/
theorem middle {a s b : List Char} (ha : Plain a) (hb : Plain b)
    (h : Balanced (a ++ (s ++ b))) : Balanced s := by
  rw [Balanced, Scan.run?_append, Scan.run?_plain ha, Option.bind_some, Scan.run?_append] at h
  obtain ⟨t, ht, hend⟩ := Option.bind_eq_some_iff.1 h
  have hproper : t.quoting.Proper := Scan.run?_proper (.inl rfl) ht
  obtain ⟨q, depth⟩ := t
  rcases hproper with rfl | hwithin
  · rw [Scan.run?_plain hb] at hend
    rw [Balanced, ht, hend]
  · exact (Scan.run?_within hb hwithin hend).elim

end Balanced

/-- A character of a clause that does not close it is the first one of its text, and takes a scan on
whatever braces are open around the clause. -/
theorem splitClause_cons {q : Quoting} {depth : Nat} {c : Char}
    (h : ¬(q = .outside ∧ c = '\x7d' ∧ depth = 0)) :
    ∃ p d, (∀ k, (⟨q, depth + k⟩ : Scan).next c = ⟨p, d + k⟩) ∧
      ∀ r, splitClause q depth (c :: r) = (splitClause p d r).map fun x ↦ (c :: x.1, x.2) := by
  by_cases hc : q = .outside ∧ c = '\x7d'
  · obtain ⟨rfl, rfl⟩ := hc
    cases depth with
    | zero => exact absurd ⟨rfl, rfl, rfl⟩ h
    | succ d =>
      refine ⟨.outside, d, fun k ↦ congrArg (Scan.mk .outside) ?_, fun r ↦ rfl⟩
      dsimp only
      omega
  · by_cases ho : q = .outside ∧ c = '\x7b'
    · refine ⟨.outside, depth + 1, fun k ↦ ?_, fun r ↦ ?_⟩
      · obtain ⟨rfl, rfl⟩ := ho
        exact congrArg (Scan.mk .outside) (by dsimp only; omega)
      · rw [splitClause.eq_def]
        dsimp only
        rw [if_neg hc, if_pos ho, ho.1]
    · refine ⟨q.next c, depth, fun k ↦ Scan.next_of_other hc ho _, fun r ↦ ?_⟩
      rw [splitClause.eq_def]
      dsimp only
      rw [if_neg hc, if_neg ho]

/-- The text of a clause is what stands before the brace that closes it. -/
theorem splitClause_iff {q : Quoting} {depth : Nat} {s body rest : List Char} :
    splitClause q depth s = some (body, rest) ↔
      s = body ++ '\x7d' :: rest ∧ (⟨q, depth⟩ : Scan).run? body = some {} := by
  induction s generalizing q depth body with
  | nil => simp [splitClause]
  | cons c r ih =>
    by_cases hend : q = .outside ∧ c = '\x7d' ∧ depth = 0
    · obtain ⟨rfl, rfl, rfl⟩ := hend
      have hsplit : splitClause .outside 0 ('\x7d' :: r) = some ([], r) := rfl
      rw [hsplit]
      constructor
      · intro h
        obtain ⟨rfl, rfl⟩ := Prod.mk.inj (Option.some.inj h)
        exact ⟨rfl, rfl⟩
      · rintro ⟨hs, hrun⟩
        cases body with
        | nil => rw [(List.cons.inj hs).2]
        | cons b body =>
          rw [← (List.cons.inj hs).1] at hrun
          cases hrun
    · obtain ⟨p, d, hon, hsplit⟩ := splitClause_cons hend
      have hnext : (⟨q, depth⟩ : Scan).next? c = some ⟨p, d⟩ := by
        rw [Scan.next?, if_neg hend]
        exact congrArg some (hon 0)
      rw [hsplit]
      constructor
      · intro h
        obtain ⟨⟨b, rest'⟩, hb, he⟩ := Option.map_eq_some_iff.1 h
        obtain ⟨rfl, rfl⟩ := Prod.mk.inj he
        obtain ⟨hr, hrun⟩ := ih.1 hb
        refine ⟨congrArg (c :: ·) hr, ?_⟩
        rw [Scan.run?_cons, hnext]
        exact hrun
      · rintro ⟨hs, hrun⟩
        cases body with
        | nil =>
          obtain ⟨rfl, rfl⟩ := Scan.mk.inj (Option.some.inj hrun)
          exact absurd ⟨rfl, (List.cons.inj hs).1, rfl⟩ hend
        | cons b body =>
          obtain ⟨rfl, hr⟩ := List.cons.inj hs
          rw [Scan.run?_cons, hnext] at hrun
          rw [ih.2 ⟨hr, hrun⟩]
          rfl

/-- Where a scan gets out of an open brace and comes back to where it started, the clause that the
brace opened is closed, and the scan of the rest starts afresh. -/
theorem splitClause_of_run {q : Quoting} {depth : Nat} {s : List Char}
    (h : Scan.run ⟨q, depth + 1⟩ s = {}) :
    ∃ body rest, splitClause q depth s = some (body, rest) ∧ Scan.run {} rest = {} := by
  induction s generalizing q depth with
  | nil =>
    have hdepth : depth + 1 = 0 := congrArg Scan.depth h
    cases hdepth
  | cons c r ih =>
    rw [Scan.run, List.foldl_cons, ← Scan.run] at h
    by_cases hend : q = .outside ∧ c = '\x7d' ∧ depth = 0
    · obtain ⟨rfl, rfl, rfl⟩ := hend
      exact ⟨[], r, rfl, h⟩
    · obtain ⟨p, d, hon, hsplit⟩ := splitClause_cons hend
      rw [hon 1] at h
      obtain ⟨body, rest, hb, hrest⟩ := ih h
      exact ⟨c :: body, rest, by rw [hsplit, hb]; rfl, hrest⟩

/-- A character that closes no brace but one that the scan has opened takes a scan within more
braces the same way, and is the first one of the text of a clause. -/
theorem splitClause_next {q : Quoting} {depth : Nat} {c : Char} {t : Scan}
    (h : (⟨q, depth⟩ : Scan).next? c = some t) :
    (∀ k, (⟨q, depth + k⟩ : Scan).next? c = some ⟨t.quoting, t.depth + k⟩) ∧
      ∀ r, splitClause q depth (c :: r) =
        (splitClause t.quoting t.depth r).map fun x ↦ (c :: x.1, x.2) := by
  have hend : ¬(q = .outside ∧ c = '\x7d' ∧ depth = 0) := fun he ↦ by
    rw [Scan.next?, if_pos he] at h
    cases h
  obtain ⟨p, d, hon, hsplit⟩ := splitClause_cons hend
  have ht : t = ⟨p, d⟩ := (Scan.next_of_next? h).trans (hon 0)
  refine ⟨fun k ↦ ?_, by rw [ht]; exact hsplit⟩
  rw [Scan.next?, if_neg fun he ↦ hend ⟨he.1, he.2.1, Nat.eq_zero_of_add_eq_zero_right he.2.2⟩,
    hon, ht]

/-- A scan in which no brace closes that none has opened goes the same way within more braces. -/
theorem Scan.run?_within_braces {q p : Quoting} {depth d : Nat} {s : List Char}
    (h : (⟨q, depth⟩ : Scan).run? s = some ⟨p, d⟩) (k : Nat) :
    (⟨q, depth + k⟩ : Scan).run? s = some ⟨p, d + k⟩ := by
  induction s generalizing q depth with
  | nil =>
    obtain ⟨rfl, rfl⟩ := Scan.mk.inj (Option.some.inj h)
    rfl
  | cons c r ih =>
    rw [Scan.run?_cons] at h
    obtain ⟨t, ht, hr⟩ := Option.bind_eq_some_iff.1 h
    rw [Scan.run?_cons, (splitClause_next ht).1 k]
    exact ih hr

/-- Behind a text in which no brace closes the clause, the clause goes on. -/
theorem splitClause_behind {q p : Quoting} {depth d : Nat} {a : List Char}
    (h : (⟨q, depth⟩ : Scan).run? a = some ⟨p, d⟩) (s : List Char) :
    splitClause q depth (a ++ s) = (splitClause p d s).map fun x ↦ (a ++ x.1, x.2) := by
  induction a generalizing q depth with
  | nil =>
    obtain ⟨rfl, rfl⟩ := Scan.mk.inj (Option.some.inj h)
    exact Option.map_id'.symm
  | cons c a ih =>
    rw [Scan.run?_cons] at h
    obtain ⟨t, ht, hr⟩ := Option.bind_eq_some_iff.1 h
    rw [List.cons_append, (splitClause_next ht).2, ih hr, Option.map_map]
    rfl

/-- A clause is not closed exactly where a scan of all that follows closes no brace that it has not
opened. -/
theorem splitClause_eq_none_iff {q : Quoting} {depth : Nat} {s : List Char} :
    splitClause q depth s = none ↔ ∃ t, (⟨q, depth⟩ : Scan).run? s = some t := by
  induction s generalizing q depth with
  | nil => exact ⟨fun _ ↦ ⟨_, rfl⟩, fun _ ↦ rfl⟩
  | cons c r ih =>
    by_cases hend : q = .outside ∧ c = '\x7d' ∧ depth = 0
    · have hnext : (⟨q, depth⟩ : Scan).next? c = none := if_pos hend
      rw [Scan.run?_cons, hnext]
      obtain ⟨rfl, rfl, rfl⟩ := hend
      simp [splitClause]
    · obtain ⟨p, d, hon, hsplit⟩ := splitClause_cons hend
      have hnext : (⟨q, depth⟩ : Scan).next? c = some ⟨p, d⟩ := by
        rw [Scan.next?, if_neg hend]
        exact congrArg some (hon 0)
      rw [hsplit, Option.map_eq_none_iff, ih, Scan.run?_cons, hnext]
      rfl

/-- Where a clause is not closed, a scan that has counted its opening brace ends within braces. -/
theorem depth_of_unclosed {q : Quoting} {depth : Nat} {s : List Char}
    (h : splitClause q depth s = none) : 0 < (Scan.run ⟨q, depth + 1⟩ s).depth := by
  obtain ⟨⟨p, d⟩, hrun⟩ := splitClause_eq_none_iff.1 h
  rw [Scan.run_of_run? (Scan.run?_within_braces hrun 1)]
  exact Nat.succ_pos d

/-- Where a clause is closed, a scan that has counted its opening brace starts afresh behind it. -/
theorem run_of_closed {q : Quoting} {depth : Nat} {s body rest : List Char}
    (h : splitClause q depth s = some (body, rest)) :
    Scan.run ⟨q, depth + 1⟩ s = Scan.run {} rest := by
  obtain ⟨rfl, hrun⟩ := splitClause_iff.1 h
  rw [Scan.run_append, Scan.run_of_run? (Scan.run?_within_braces hrun 1)]
  rfl

/-- What follows the text does not change the clause at its start. -/
theorem splitClause_append {q : Quoting} {depth : Nat} {s body rest : List Char}
    (h : splitClause q depth s = some (body, rest)) (b : List Char) :
    splitClause q depth (s ++ b) = some (body, rest ++ b) := by
  obtain ⟨rfl, hrun⟩ := splitClause_iff.1 h
  exact splitClause_iff.2 ⟨List.append_assoc .., hrun⟩

/-- A known clause starts with one of the keywords. -/
theorem lower_keyword {word : List Char} {k : Clause} (h : Clause.ofKeyword? word = some k) :
    Text.lower word ∈ "call".toList :: "escape".toList :: bareKeywords := by
  unfold Clause.ofKeyword? at h
  split at h
  · next hk => exact List.mem_cons_of_mem _ (List.mem_cons_of_mem _ (List.contains_iff_mem.1 hk))
  · split at h
    · next hk => exact List.mem_cons.2 (.inl hk)
    · split at h
      · next hk => exact List.mem_cons_of_mem _ (List.mem_cons.2 (.inl hk))
      · cases h

/-- The words that a known clause starts with are free of marks. -/
theorem plain_keyword {word : List Char} {k : Clause} (h : Clause.ofKeyword? word = some k) :
    Plain word := by
  have hall : ∀ w ∈ "call".toList :: "escape".toList :: bareKeywords, Plain w := by decide
  exact plain_of_lower (hall _ (lower_keyword h))

/-- A trimmed text stands between texts without marks. -/
theorem trim_between {a s : List Char} (ha : Plain a) :
    ∃ a' b, a ++ s = a' ++ (Text.trim s ++ b) ∧ Plain a' ∧ Plain b := by
  obtain ⟨lead, tail, hs, hlead, htail⟩ := Text.trim_split s
  refine ⟨a ++ lead, tail, ?_, ha.append (plain_of_allBlank hlead), plain_of_allBlank htail⟩
  rw [List.append_assoc, ← hs]

/-- What a call that assigns its result has in front of its rest is free of marks. -/
theorem assignedCall?_split {body rest : List Char} (h : assignedCall? body = some rest) :
    ∃ a b, body = a ++ (rest ++ b) ∧ Plain a ∧ Plain b := by
  unfold assignedCall? at h
  split at h
  · next r =>
    split at h
    · next r' hr =>
      obtain ⟨t, ht, rfl⟩ := Option.map_eq_some_iff.1 h
      unfold dropLetters? at ht
      split at ht
      · next hword =>
        obtain ⟨w₁, hr₁, hw₁⟩ := Text.trimStart_split r
        obtain ⟨w₂, hr₂, hw₂⟩ := Text.trimStart_split r'
        generalize Text.trimStart r' = u at hr₂ hword ht
        have hplain : Plain (u.take "call".toList.length) := by
          apply plain_of_lower
          rw [beq_iff_eq.1 hword]
          decide
        have hfront : Plain (['?'] ++ w₁ ++ ['='] ++ w₂ ++ u.take "call".toList.length) :=
          (((Plain.append (by decide) (plain_of_allBlank hw₁)).append (by decide)).append
            (plain_of_allBlank hw₂)).append hplain
        obtain ⟨a, b, hab, ha, hb⟩ := trim_between (s := t) hfront
        refine ⟨a, b, ?_, ha, hb⟩
        rw [← hab, hr₁, hr, hr₂, ← Option.some.inj ht]
        simp
      · cases ht
    · cases h
  · cases h

/-- A clause is what is left of it between texts without marks. -/
theorem read?_split {inner rest : List Char} {k : Clause}
    (h : Clause.read? inner = some (k, rest)) :
    ∃ a b, inner = a ++ (rest ++ b) ∧ Plain a ∧ Plain b := by
  obtain ⟨lead, tail, hinner, hlead, htail⟩ := Text.trim_split inner
  have hbody : ∃ a b, Text.trim inner = a ++ (rest ++ b) ∧ Plain a ∧ Plain b := by
    unfold Clause.read? at h
    dsimp only at h
    split at h
    · next hc =>
      obtain ⟨-, rfl⟩ := Prod.mk.inj (Option.some.inj h)
      exact assignedCall?_split hc
    · obtain ⟨k', hk, he⟩ := Option.map_eq_some_iff.1 h
      obtain ⟨-, rfl⟩ := Prod.mk.inj he
      obtain ⟨a, b, hab, ha, hb⟩ := trim_between (plain_keyword hk)
      exact ⟨a, b, List.takeWhile_append_dropWhile.symm.trans hab, ha, hb⟩
  obtain ⟨a, b, hab, ha, hb⟩ := hbody
  refine ⟨lead ++ a, b ++ tail, ?_, (plain_of_allBlank hlead).append ha,
    hb.append (plain_of_allBlank htail)⟩
  rw [hinner, hab]
  simp

/-- What is left of a balanced clause is balanced. -/
theorem Balanced.rest {inner rest : List Char} {k : Clause} (h : Balanced inner)
    (hr : Clause.read? inner = some (k, rest)) : Balanced rest := by
  obtain ⟨a, b, rfl, ha, hb⟩ := read?_split hr
  exact h.middle ha hb

end SqlSession.Sql
