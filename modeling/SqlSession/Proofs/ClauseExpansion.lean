import SqlSession.Proofs.ClauseScan
import SqlSession.Proofs.FirstLetter

/-!
# The expansion in parts

What ends outside of quotes and clauses is expanded on its own, whatever follows. A clause with a
known keyword is expanded to the expansion of its trimmed text behind the word that stands for it.
`Expands` lists the ways in which the expansion succeeds.
-/

namespace SqlSession

namespace Text

/-- No capital is a blank. -/
theorem toLower_of_isBlank {c : Char} (h : isBlank c = true) : c.toLower = c := by
  rcases toLower_cases c with hsame | ⟨k, hk, rfl⟩
  · exact hsame
  · have hall : ∀ k < 26, isBlank (Char.ofNat (65 + k)) = false := by decide
    rw [hall k hk] at h
    cases h

/-- A text of letters has no blank if its small letters have none. -/
theorem unblank_of_lower {s : List Char} (h : ∀ c ∈ lower s, isBlank c = false) :
    ∀ c ∈ s, isBlank c = false := by
  intro c hc
  have hlower := h c.toLower (List.mem_map.2 ⟨c, hc, rfl⟩)
  cases hb : isBlank c with
  | false => rfl
  | true =>
    rw [toLower_of_isBlank hb, hb] at hlower
    cases hlower

/-- Behind a text without blanks only what follows is trimmed. -/
theorem trimEnd_unblank_append {a : List Char} (h : ∀ c ∈ a, isBlank c = false) (b : List Char) :
    trimEnd (a ++ b) = a ++ trimEnd b := by
  rw [trimEnd_append]
  split
  · next hb => rw [trimEnd_of_unblank h, hb, List.append_nil]
  · rfl

/-- A text that does not start with a blank keeps its start. -/
theorem trimStart_unblank_append {a : List Char} (h : ∀ c ∈ a, isBlank c = false) (ha : a ≠ [])
    (b : List Char) : trimStart (a ++ b) = a ++ b := by
  cases a with
  | nil => exact absurd rfl ha
  | cons c r => exact List.dropWhile_cons_of_neg (by simp [h c (by simp)])

end Text

namespace Sql

/-- A clause that is not closed cannot be expanded. -/
theorem expandFrom_unclosed {r : List Char} (hs : splitClause .outside 0 r = none) :
    expandFrom .outside ('\x7b' :: r) = .error (.invalidArgument .unterminatedEscape) := by
  rw [expandFrom, if_pos ⟨rfl, rfl⟩]
  split
  · rfl
  · next h =>
    rw [hs] at h
    cases h

/-- A clause that is not known stays as it is. -/
theorem expandFrom_unknown {r inner rest : List Char}
    (hs : splitClause .outside 0 r = some (inner, rest)) (hc : Clause.read? inner = none) :
    expandFrom .outside ('\x7b' :: r) =
      (expandFrom .outside rest).map fun t ↦ '\x7b' :: inner ++ '\x7d' :: t := by
  rw [expandFrom, if_pos ⟨rfl, rfl⟩]
  split
  · next h =>
    rw [hs] at h
    cases h
  · next h =>
    rw [hs] at h
    obtain ⟨rfl, rfl⟩ := Prod.mk.inj (Option.some.inj h)
    split
    · rfl
    · next h =>
      rw [hc] at h
      cases h

/-- A known clause is expanded, and then the text behind it. -/
theorem expandFrom_known {r inner rest body : List Char} {k : Clause}
    (hs : splitClause .outside 0 r = some (inner, rest))
    (hc : Clause.read? inner = some (k, body)) :
    expandFrom .outside ('\x7b' :: r) =
      (expandFrom .outside body).bind fun b ↦
        (expandFrom .outside rest).map fun t ↦ k.lead ++ b ++ t := by
  rw [expandFrom, if_pos ⟨rfl, rfl⟩]
  split
  · next h =>
    rw [hs] at h
    cases h
  · next h =>
    rw [hs] at h
    obtain ⟨rfl, rfl⟩ := Prod.mk.inj (Option.some.inj h)
    split
    · next h =>
      rw [hc] at h
      cases h
    · next h =>
      rw [hc] at h
      obtain ⟨rfl, rfl⟩ := Prod.mk.inj (Option.some.inj h)
      cases expandFrom .outside body <;> rfl

/-- A mapped result comes from one. -/
theorem ok_of_map {ε α β : Type} {x : Except ε α} {f : α → β} {b : β} (h : x.map f = .ok b) :
    ∃ a, x = .ok a ∧ b = f a := by
  cases x with
  | error e => cases h
  | ok a => exact ⟨a, rfl, (Except.ok.inj h).symm⟩

/-- From a position with the given quoting on, the text is expanded to another one. -/
inductive Expands : Quoting → List Char → List Char → Prop
  | nil (q : Quoting) : Expands q [] []
  /-- A character that opens no clause. -/
  | copied {q : Quoting} {c : Char} {r t : List Char} (hopen : ¬(q = .outside ∧ c = '\x7b'))
      (h : Expands (q.next c) r t) : Expands q (c :: r) (c :: t)
  | unknown {inner rest t : List Char} (hb : Balanced inner) (hc : Clause.read? inner = none)
      (h : Expands .outside rest t) :
    Expands .outside ('\x7b' :: (inner ++ '\x7d' :: rest)) ('\x7b' :: (inner ++ '\x7d' :: t))
  | known {inner rest body b t : List Char} {k : Clause} (hb : Balanced inner)
      (hc : Clause.read? inner = some (k, body)) (hbody : Expands .outside body b)
      (h : Expands .outside rest t) :
    Expands .outside ('\x7b' :: (inner ++ '\x7d' :: rest)) (k.lead ++ (b ++ t))

theorem Expands.expandFrom_eq {q : Quoting} {s t : List Char} (h : Expands q s t) :
    expandFrom q s = .ok t := by
  induction h with
  | nil q => rw [expandFrom]
  | copied hopen _ ih =>
    rw [expandFrom, if_neg hopen, ih]
    rfl
  | unknown hb hc _ ih =>
    rw [expandFrom_unknown (splitClause_iff.2 ⟨rfl, hb⟩) hc, ih]
    rfl
  | known hb hc _ _ ihBody ih =>
    rw [expandFrom_known (splitClause_iff.2 ⟨rfl, hb⟩) hc, ihBody, ih, ← List.append_assoc]
    rfl

/-- The expansion succeeds by one of the ways to expand a text. -/
theorem expands_of_expandFrom {q : Quoting} {s t : List Char} (h : expandFrom q s = .ok t) :
    Expands q s t := by
  induction q, s using expandFrom.induct generalizing t with
  | case1 q =>
    rw [expandFrom] at h
    exact Except.ok.inj h ▸ .nil q
  | case2 q c r hopen hs =>
    obtain ⟨rfl, rfl⟩ := hopen
    rw [expandFrom_unclosed hs] at h
    cases h
  | case3 q c r hopen inner rest hs hc ih =>
    obtain ⟨rfl, rfl⟩ := hopen
    rw [expandFrom_unknown hs hc] at h
    obtain ⟨t', ht, rfl⟩ := ok_of_map h
    obtain ⟨rfl, hb⟩ := splitClause_iff.1 hs
    exact .unknown hb hc (ih ht)
  | case4 q c r hopen inner rest hs k body hc e he ih =>
    obtain ⟨rfl, rfl⟩ := hopen
    rw [expandFrom_known hs hc, he] at h
    cases h
  | case5 q c r hopen inner rest hs k body hc b hb ihBody ih =>
    obtain ⟨rfl, rfl⟩ := hopen
    rw [expandFrom_known hs hc, hb, Except.bind] at h
    obtain ⟨t', ht, rfl⟩ := ok_of_map h
    obtain ⟨rfl, hinner⟩ := splitClause_iff.1 hs
    rw [List.append_assoc]
    exact .known hinner hc (ihBody hb) (ih ht)
  | case6 q c r hopen ih =>
    obtain ⟨t', ht, rfl⟩ := expandFrom_cons hopen h
    exact .copied hopen (ih ht)

/-- What a scan leaves outside of quotes and braces is expanded, whatever follows. -/
theorem expandFrom_append {q : Quoting} {a : List Char} (h : Scan.run ⟨q, 0⟩ a = {}) :
    ∃ t, expandFrom q a = .ok t ∧
      ∀ b, expandFrom q (a ++ b) = (expandFrom .outside b).map (t ++ ·) := by
  -- behind a clause the scan goes on from where it started
  have behind {r inner rest : List Char} (hr : Scan.run ⟨.outside, 1⟩ r = {})
      (hs : splitClause .outside 0 r = some (inner, rest)) : Scan.run ⟨.outside, 0⟩ rest = {} := by
    obtain ⟨body, rest', hsplit, hrest⟩ := splitClause_of_run hr
    rw [hs] at hsplit
    obtain ⟨-, rfl⟩ := Prod.mk.inj (Option.some.inj hsplit)
    exact hrest
  induction q, a using expandFrom.induct with
  | case1 q =>
    obtain ⟨rfl, -⟩ := Scan.mk.inj h
    refine ⟨[], by rw [expandFrom], fun b ↦ ?_⟩
    rw [List.nil_append]
    cases expandFrom .outside b <;> rfl
  | case2 q c r hopen hs =>
    -- a clause that is not closed leaves the scan inside
    obtain ⟨rfl, rfl⟩ := hopen
    obtain ⟨body, rest, hsplit, -⟩ := @splitClause_of_run .outside 0 r h
    rw [hs] at hsplit
    cases hsplit
  | case3 q c r hopen inner rest hs hc ih =>
    obtain ⟨rfl, rfl⟩ := hopen
    obtain ⟨t, ht, hb⟩ := ih (behind h hs)
    refine ⟨'\x7b' :: inner ++ '\x7d' :: t, ?_, fun b ↦ ?_⟩
    · rw [expandFrom_unknown hs hc, ht]
      rfl
    · rw [List.cons_append, expandFrom_unknown (splitClause_append hs b) hc, hb]
      cases expandFrom .outside b with
      | error e => rfl
      | ok u => simp [Except.map]
  | case4 q c r hopen inner rest hs k body hc e he ih =>
    -- the rest of a closed clause can be expanded
    obtain ⟨rfl, rfl⟩ := hopen
    obtain ⟨-, hinner⟩ := splitClause_iff.1 hs
    obtain ⟨t, ht, -⟩ := ih (Balanced.rest hinner hc).run
    rw [he] at ht
    cases ht
  | case5 q c r hopen inner rest hs k body hc b hb ihBody ih =>
    obtain ⟨rfl, rfl⟩ := hopen
    obtain ⟨t, ht, happend⟩ := ih (behind h hs)
    refine ⟨k.lead ++ b ++ t, ?_, fun b' ↦ ?_⟩
    · rw [expandFrom_known hs hc, hb, Except.bind, ht]
      rfl
    · rw [List.cons_append, expandFrom_known (splitClause_append hs b') hc, hb, Except.bind,
        happend]
      cases expandFrom .outside b' with
      | error e => rfl
      | ok u => simp [Except.map]
  | case6 q c r hopen ih =>
    have hnext : Scan.run ⟨q.next c, 0⟩ r = {} := by
      by_cases hc : q = .outside ∧ c = '\x7d'
      · obtain ⟨rfl, rfl⟩ := hc
        exact h
      · rw [← Scan.next_of_other hc hopen]
        exact h
    obtain ⟨t, ht, happend⟩ := ih hnext
    refine ⟨c :: t, by rw [expandFrom, if_neg hopen, ht]; rfl, fun b ↦ ?_⟩
    rw [List.cons_append, expandFrom, if_neg hopen, happend]
    cases expandFrom .outside b <;> rfl

/-- A clause that is known and balanced is the expansion of its rest behind its lead. -/
theorem expand_clause {inner rest : List Char} {k : Clause} (hb : Balanced inner)
    (hr : Clause.read? inner = some (k, rest)) :
    expand ('\x7b' :: (inner ++ ['\x7d'])) = (expand rest).map (k.lead ++ ·) := by
  have hs : splitClause .outside 0 (inner ++ ['\x7d']) = some (inner, []) :=
    splitClause_iff.2 ⟨rfl, hb⟩
  rw [expand, expandFrom_known hs hr, expand, expandFrom]
  cases expandFrom .outside rest with
  | error e => rfl
  | ok t => simp [Except.bind, Except.map]

/-- The words that a known clause starts with hold no blank, and no question mark comes first. -/
theorem word_keyword {word : List Char} {k : Clause} (h : Clause.ofKeyword? word = some k) :
    word ≠ [] ∧ word.head? ≠ some '?' ∧ ∀ c ∈ word, Text.isBlank c = false := by
  have hall : ∀ w ∈ "call".toList :: "escape".toList :: bareKeywords,
      w ≠ [] ∧ w.head? ≠ some '?' ∧ w.any Text.isBlank = false := by decide
  obtain ⟨hne, hhead, hany⟩ := hall _ (lower_keyword h)
  have hblank : ∀ c ∈ Text.lower word, Text.isBlank c = false := fun c hc ↦
    Bool.eq_false_iff.2 (List.any_eq_false.1 hany c hc)
  refine ⟨fun hnil ↦ hne (by rw [hnil]; rfl), fun hq ↦ hhead ?_, Text.unblank_of_lower hblank⟩
  rw [Text.lower, List.head?_map, hq]
  rfl

/-- A text that does not start with a question mark is no call that assigns its result. -/
theorem assignedCall?_of_head {body : List Char} (h : body.head? ≠ some '?') :
    assignedCall? body = none := by
  unfold assignedCall?
  split
  · exact absurd rfl h
  · rfl

/-- A clause with a known keyword is read as its trimmed rest. -/
theorem read?_keyword {lead word w r : List Char} {k : Clause} (hl : Text.allBlank lead = true)
    (hw : Text.allBlank w = true) (hne : w ≠ []) (hk : Clause.ofKeyword? word = some k) :
    Clause.read? (lead ++ (word ++ (w ++ r))) = some (k, Text.trim r) := by
  obtain ⟨hword, hhead, hblank⟩ := word_keyword hk
  have hbody : Text.trim (lead ++ (word ++ (w ++ r))) = word ++ Text.trimEnd (w ++ r) := by
    rw [Text.trim_append hl, Text.trim, Text.trimStart_unblank_append hblank hword,
      Text.trimEnd_unblank_append hblank]
  have hcall : assignedCall? (word ++ Text.trimEnd (w ++ r)) = none := by
    apply assignedCall?_of_head
    cases word with
    | nil => exact absurd rfl hword
    | cons c t => exact hhead
  -- the word ends where the blanks behind it start
  have hstop : ∀ c ∈ (Text.trimEnd (w ++ r)).head?, Text.isBlank c = true := by
    cases w with
    | nil => exact absurd rfl hne
    | cons b w =>
      intro c hc
      rw [List.cons_append, Text.trimEnd_cons] at hc
      have hb : Text.isBlank b = true := List.all_eq_true.1 hw b (by simp)
      split at hc
      · simp at hc
      · rw [List.head?_cons, Option.mem_some_iff] at hc
        exact hc ▸ hb
  have hpos : ∀ c ∈ word, (!Text.isBlank c) = true := fun c hc ↦ by simp [hblank c hc]
  have htake : (Text.trimEnd (w ++ r)).takeWhile (fun c ↦ !Text.isBlank c) = [] := by
    cases h : Text.trimEnd (w ++ r) with
    | nil => rfl
    | cons c t => rw [List.takeWhile_cons_of_neg (by simp [hstop c (by simp [h])])]
  have hdrop : (Text.trimEnd (w ++ r)).dropWhile (fun c ↦ !Text.isBlank c) =
      Text.trimEnd (w ++ r) := by
    cases h : Text.trimEnd (w ++ r) with
    | nil => rfl
    | cons c t => rw [List.dropWhile_cons_of_neg (by simp [hstop c (by simp [h])])]
  unfold Clause.read?
  dsimp only
  rw [hbody, hcall]
  dsimp only
  rw [List.takeWhile_append_of_pos hpos, List.dropWhile_append_of_pos hpos, htake, hdrop,
    List.append_nil, hk, Text.trim_trimEnd, Text.trim_append hw]
  rfl

theorem ofKeyword?_call {word : List Char} (h : Text.lower word = "call".toList) :
    Clause.ofKeyword? word = some .call := by
  unfold Clause.ofKeyword?
  rw [h]
  decide

theorem ofKeyword?_escape {word : List Char} (h : Text.lower word = "escape".toList) :
    Clause.ofKeyword? word = some .escape := by
  unfold Clause.ofKeyword?
  rw [h]
  decide

/-- A call that assigns its result is read as its trimmed rest. -/
theorem read?_assigned {lead w₁ w₂ word r : List Char} (hl : Text.allBlank lead = true)
    (h₁ : Text.allBlank w₁ = true) (h₂ : Text.allBlank w₂ = true)
    (hk : Text.lower word = "call".toList) :
    Clause.read? (lead ++ ('?' :: w₁ ++ ('=' :: w₂ ++ (word ++ r)))) =
      some (.call, Text.trim r) := by
  obtain ⟨hword, -, hblank⟩ := word_keyword (ofKeyword?_call hk)
  have hlength : word.length = "call".toList.length := by
    rw [← hk, Text.lower, List.length_map]
  have hrest : Text.trimEnd (word ++ r) = word ++ Text.trimEnd r :=
    Text.trimEnd_unblank_append hblank r
  have hne : Text.trimEnd (word ++ r) ≠ [] := by simp [hrest, hword]
  have hbody : Text.trim (lead ++ ('?' :: w₁ ++ ('=' :: w₂ ++ (word ++ r)))) =
      '?' :: (w₁ ++ '=' :: (w₂ ++ (word ++ Text.trimEnd r))) := by
    have hfront : '?' :: w₁ ++ ('=' :: w₂ ++ (word ++ r)) =
        ('?' :: w₁ ++ '=' :: w₂) ++ (word ++ r) := by simp
    have hstart : Text.trimStart ('?' :: w₁ ++ ('=' :: w₂ ++ (word ++ r))) =
        '?' :: w₁ ++ ('=' :: w₂ ++ (word ++ r)) := List.dropWhile_cons_of_neg (by decide)
    rw [Text.trim_append hl, Text.trim, hstart, hfront, Text.trimEnd_append, if_neg hne, hrest]
    simp
  have hequals : Text.trimStart (w₁ ++ '=' :: (w₂ ++ (word ++ Text.trimEnd r))) =
      '=' :: (w₂ ++ (word ++ Text.trimEnd r)) := by
    rw [Text.trimStart_append h₁]
    exact List.dropWhile_cons_of_neg (by decide)
  have hletters : dropLetters? "call".toList (word ++ Text.trimEnd r) = some (Text.trimEnd r) := by
    unfold dropLetters?
    rw [List.take_left' hlength, List.drop_left' hlength, if_pos]
    rw [Text.sameLetters, hk]
    decide
  have hassigned : assignedCall? ('?' :: (w₁ ++ '=' :: (w₂ ++ (word ++ Text.trimEnd r)))) =
      some (Text.trim r) := by
    rw [assignedCall?, hequals]
    change (dropLetters? _ (Text.trimStart (w₂ ++ (word ++ Text.trimEnd r)))).map Text.trim = _
    rw [Text.trimStart_append h₂, Text.trimStart_unblank_append hblank hword, hletters,
      Option.map_some, Text.trim_trimEnd]
  unfold Clause.read?
  dsimp only
  rw [hbody, hassigned]

/-- The text without the blanks at its ends. -/
def trimText (s : String) : String := String.ofList (Text.trim s.toList)

/-- The text of a clause: a keyword, with blanks in front of it and behind it, and a rest. -/
def clauseText (lead word w r : String) : String := "\x7b" ++ lead ++ word ++ w ++ r ++ "\x7d"

/-- A clause whose text is read as the trimmed rest is the expansion of that behind its lead. -/
theorem expandText_clause {s r front : String} {inner : List Char} {k : Clause}
    (hb : Balanced inner) (hs : s.toList = '\x7b' :: (inner ++ ['\x7d']))
    (hr : Clause.read? inner = some (k, Text.trim r.toList)) (hf : k.lead = front.toList) :
    expandText s = (expandText (trimText r)).map (front ++ ·) := by
  rw [expandText, hs, expand_clause hb hr, expandText, trimText, String.toList_ofList]
  cases expand (Text.trim r.toList) with
  | error e => rfl
  | ok t =>
    have hfront : String.ofList (k.lead ++ t) = front ++ String.ofList t := by
      rw [hf, String.ofList_append, String.ofList_toList]
    exact congrArg Except.ok hfront

/-- The expansion is compositional. A text that a scan leaves outside of quotes and braces is
expanded on its own, whatever follows. A clause with a keyword in any case, and with a balanced rest
behind blanks, is the expansion of that rest without the blanks around it, behind the word that
stands for the keyword. -/
theorem expandText_compositional :
    (∀ a : String, Scan.run {} a.toList = {} →
      ∃ t, expandText a = .ok t ∧ ∀ b, expandText (a ++ b) = (expandText b).map (t ++ ·)) ∧
    ∀ lead word w r : String, Text.allBlank lead.toList = true → Text.allBlank w.toList = true →
      w ≠ "" → Balanced r.toList →
        (Text.lower word.toList ∈ ["d", "t", "ts", "fn", "oj"].map String.toList →
          expandText (clauseText lead word w r) = expandText (trimText r)) ∧
        (Text.lower word.toList = "call".toList →
          expandText (clauseText lead word w r) = (expandText (trimText r)).map ("CALL " ++ ·) ∧
          ∀ w₁ w₂ : String, Text.allBlank w₁.toList = true → Text.allBlank w₂.toList = true →
            expandText (clauseText lead ("?" ++ w₁ ++ "=" ++ w₂ ++ word) w r) =
              (expandText (trimText r)).map ("CALL " ++ ·)) ∧
        (Text.lower word.toList = "escape".toList →
          expandText (clauseText lead word w r) =
            (expandText (trimText r)).map ("ESCAPE " ++ ·)) := by
  refine ⟨fun a h ↦ ?_, fun lead word w r hl hw hne hr ↦ ?_⟩
  · obtain ⟨t, ht, happend⟩ := expandFrom_append h
    refine ⟨String.ofList t, by rw [expandText, expand, ht]; rfl, fun b ↦ ?_⟩
    rw [expandText, expand, String.toList_append, happend, expandText, expand]
    cases expandFrom .outside b.toList with
    | error e => rfl
    | ok u => exact congrArg Except.ok String.ofList_append
  · have hwne : w.toList ≠ [] := fun hnil ↦ hne (String.toList_eq_nil_iff.1 hnil)
    have known {k : Clause} (hk : Clause.ofKeyword? word.toList = some k) {front : String}
        (hf : k.lead = front.toList) :
        expandText (clauseText lead word w r) = (expandText (trimText r)).map (front ++ ·) := by
      refine expandText_clause ?_ ?_ (read?_keyword hl hw hwne hk) hf
      · exact .behind (plain_of_allBlank hl)
          (.behind (plain_keyword hk) (.behind (plain_of_allBlank hw) hr))
      · simp [clauseText]
    refine ⟨fun hk ↦ ?_, fun hk ↦ ⟨known (ofKeyword?_call hk) rfl, fun w₁ w₂ h₁ h₂ ↦ ?_⟩,
      fun hk ↦ known (ofKeyword?_escape hk) rfl⟩
    · have hbare : Clause.lead .bare = "".toList := rfl
      rw [known (if_pos (List.contains_iff_mem.2 hk)) hbare]
      cases expandText (trimText r) with
      | error e => rfl
      | ok t => exact congrArg Except.ok (String.empty_append ..)
    · have hread := @read?_assigned _ _ _ _ (w.toList ++ r.toList) hl h₁ h₂ hk
      rw [Text.trim_append hw] at hread
      have plain {c : Char} (hc : isMark c = false) {s : List Char}
          (hs : Text.allBlank s = true) : Plain (c :: s) :=
        List.forall_mem_cons.2 ⟨hc, plain_of_allBlank hs⟩
      refine expandText_clause ?_ ?_ hread rfl
      · exact .behind (plain_of_allBlank hl) (.behind (plain (by decide) h₁)
          (.behind (plain (by decide) h₂) (.behind (plain_keyword (ofKeyword?_call hk))
            (.behind (plain_of_allBlank hw) hr))))
      · simp [clauseText]

/-- A brace in a literal within nested clauses, and a call that assigns its result. -/
theorem expandText_compositional_nested :
    let a := "SELECT \x7bfn f(\x7bd '\x7d'\x7d)\x7d, "
    let r := "p(\x7bts '1'\x7d) "
    Scan.run {} a.toList = {} ∧ Balanced r.toList ∧
      (∃ t, expandText a = .ok t ∧ t = "SELECT f('\x7d'), " ∧
        ∀ b, expandText (a ++ b) = (expandText b).map (t ++ ·)) ∧
      expandText (clauseText "" "OJ" " " r) = expandText (trimText r) ∧
      expandText (clauseText " " "?\t=cAll" "\n" r) = .ok "CALL p('1')" := by
  intro a r
  have ha : Scan.run {} a.toList = {} := by decide +kernel
  have hr : Balanced r.toList := by decide +kernel
  have hb (s : String) (h : s ∈ ["", " ", "\t", "\n"]) : Text.allBlank s.toList = true := by
    revert s
    decide +kernel
  obtain ⟨t, ht, happend⟩ := expandText_compositional.1 a ha
  have hexpanded : expandText a = .ok "SELECT f('\x7d'), " := by decide +kernel
  have hoj := (expandText_compositional.2 "" "OJ" " " r (hb _ (by simp)) (hb _ (by simp))
    (by decide) hr).1 (by decide +kernel)
  have hcall := ((expandText_compositional.2 " " "cAll" "\n" r (hb _ (by simp)) (hb _ (by simp))
    (by decide) hr).2.1 (by decide +kernel)).2 "\t" "" (hb _ (by simp)) (hb _ (by simp))
  have hrest : expandText (trimText r) = .ok "p('1')" := by decide +kernel
  refine ⟨ha, hr, ⟨t, ht, ?_, happend⟩, hoj, ?_⟩
  · rw [hexpanded] at ht
    exact (Except.ok.inj ht).symm
  · rw [hrest] at hcall
    exact hcall

end Sql

end SqlSession
