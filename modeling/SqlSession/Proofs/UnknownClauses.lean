import Mathlib.Data.List.TakeWhile
import SqlSession.Proofs.Literals
import SqlSession.Proofs.UnclosedClauses

/-!
# Clauses that are not known

A clause is known for its head word: the first word of its text, or the first one behind a question
mark and an equals sign. A clause that is not known stays as it is wherever it stands outside of
quotes, also within other clauses. Those are read by what stands in front of it, so that nothing
around it depends on what it holds. Behind an equals sign a word need only start with `call`.
-/

namespace SqlSession

namespace Text

/-- What is no blank ends the blanks at the start. -/
theorem trimStart_append_cons {c : Char} (hc : isBlank c = false) (a s : List Char) :
    trimStart (a ++ c :: s) = trimStart a ++ c :: s := by
  unfold trimStart
  rw [List.dropWhile_append, List.dropWhile_cons_of_neg (by simp [hc])]
  split
  · next h => rw [List.isEmpty_iff.1 h, List.nil_append]
  · rfl

/-- What is no blank ends the blanks at the end. -/
theorem trimEnd_append_cons {c : Char} (hc : isBlank c = false) (a s : List Char) :
    trimEnd (a ++ c :: s) = a ++ c :: trimEnd s := by
  have hcons : trimEnd (c :: s) = c :: trimEnd s := by
    rw [trimEnd_cons]
    split
    · next h => rw [h, if_neg (by simp [hc])]
    · rfl
  rw [trimEnd_append, hcons, if_neg (List.cons_ne_nil _ _)]

end Text

namespace Sql

/-- What stands before the first blank of a text. -/
def firstWord (s : List Char) : List Char := s.takeWhile fun c ↦ !Text.isBlank c

/-- What follows the character at the start of a text. -/
def dropChar? (c : Char) : List Char → Option (List Char)
  | [] => none
  | d :: r => if d = c then some r else none

/-- What follows a question mark and an equals sign at the start of a text, without the blanks
behind either. -/
def assigned? (body : List Char) : Option (List Char) :=
  (((dropChar? '?' body).map Text.trimStart).bind (dropChar? '=')).map Text.trimStart

/-- The keywords that a clause can start with. -/
def keywords : List (List Char) := "call".toList :: "escape".toList :: bareKeywords

/-- The head word of a clause is one of its keywords, behind an equals sign only `call`. -/
def KnownHead (inner : List Char) : Prop :=
  match assigned? (Text.trim inner) with
  | some r => Text.lower (firstWord r) = "call".toList
  | none => Text.lower (firstWord (Text.trim inner)) ∈ keywords

/-- Behind an equals sign the letters of `call` are only the start of a word. -/
def CutCall (inner : List Char) : Prop :=
  ∃ r, assigned? (Text.trim inner) = some r ∧ "call".toList <+: Text.lower r ∧
    Text.lower (firstWord r) ≠ "call".toList

theorem dropChar?_self (c : Char) (r : List Char) : dropChar? c (c :: r) = some r := if_pos rfl

theorem dropChar?_of_ne {c : Char} {s : List Char} (h : ∀ r, s ≠ c :: r) :
    dropChar? c s = none := by
  cases s with
  | nil => rfl
  | cons d r => exact if_neg fun hd ↦ h r (by rw [hd])

/-- A call that assigns its result is what follows the equals sign without the letters of `call`. -/
theorem assignedCall?_eq (body : List Char) :
    assignedCall? body =
      (assigned? body).bind fun r ↦ (dropLetters? "call".toList r).map Text.trim := by
  unfold assignedCall? assigned?
  split
  · rw [dropChar?_self, Option.map_some, Option.bind_some]
    split
    · next hr => rw [hr, dropChar?_self, Option.map_some, Option.bind_some]
    · next hr =>
      rw [dropChar?_of_ne hr]
      rfl
  · next h =>
    rw [dropChar?_of_ne h]
    rfl

/-- The letters of `call` are dropped where a text starts with them in any case. -/
theorem dropLetters?_call (r : List Char) :
    dropLetters? "call".toList r =
      if "call".toList <+: Text.lower r then some (r.drop 4) else none := by
  have hsame : Text.sameLetters (r.take 4) "call".toList = true ↔
      "call".toList <+: Text.lower r := by
    have hcall : Text.lower "call".toList = "call".toList := by decide
    rw [Text.sameLetters, beq_iff_eq, hcall, List.prefix_iff_eq_take, eq_comm, Text.lower,
      List.map_take]
    rfl
  have hlength : "call".toList.length = 4 := rfl
  rw [dropLetters?, hlength]
  by_cases hp : "call".toList <+: Text.lower r
  · rw [if_pos hp, if_pos (hsame.2 hp)]
  · rw [if_neg hp, if_neg (mt hsame.1 hp)]

theorem ofKeyword?_eq_none_iff {word : List Char} :
    Clause.ofKeyword? word = none ↔ Text.lower word ∉ keywords := by
  constructor
  · intro h hk
    rcases List.mem_cons.1 hk with hk | hk
    · rw [ofKeyword?_call hk] at h
      cases h
    · rcases List.mem_cons.1 hk with hk | hk
      · rw [ofKeyword?_escape hk] at h
        cases h
      · rw [Clause.ofKeyword?, if_pos (List.contains_iff_mem.2 hk)] at h
        cases h
  · intro h
    cases hk : Clause.ofKeyword? word with
    | none => rfl
    | some k => exact absurd (lower_keyword hk) h

/-- The first word of a text that starts with a question mark is no keyword. -/
theorem ofKeyword?_of_assigned {body r : List Char} (h : assigned? body = some r) :
    Clause.ofKeyword? (firstWord body) = none := by
  cases hk : Clause.ofKeyword? (firstWord body) with
  | none => rfl
  | some k =>
    have hne : ∀ r, body ≠ '?' :: r := by
      rintro r rfl
      exact absurd rfl (word_keyword hk).2.1
    rw [assigned?, dropChar?_of_ne hne] at h
    cases h

/-- A clause is not known if its head word is none of the keywords and does not just start with
`call` behind an equals sign. -/
theorem read?_eq_none_iff {inner : List Char} :
    Clause.read? inner = none ↔ ¬KnownHead inner ∧ ¬CutCall inner := by
  unfold Clause.read? KnownHead CutCall
  dsimp only
  rw [assignedCall?_eq]
  cases ha : assigned? (Text.trim inner) with
  | none =>
    have hcut : ¬∃ r, none = some r ∧ "call".toList <+: Text.lower r ∧
        Text.lower (firstWord r) ≠ "call".toList := by simp
    rw [Option.bind_none, and_iff_left hcut, ← ofKeyword?_eq_none_iff]
    exact Option.map_eq_none_iff
  | some r =>
    have hword := ofKeyword?_of_assigned ha
    rw [firstWord] at hword
    rw [Option.bind_some, dropLetters?_call]
    by_cases hp : "call".toList <+: Text.lower r
    · rw [if_pos hp, Option.map_some]
      exact ⟨nofun, fun h ↦ absurd ⟨r, rfl, hp, h.1⟩ h.2⟩
    · have hne : Text.lower (firstWord r) ≠ "call".toList := fun he ↦
        hp (he ▸ (List.takeWhile_prefix _).map _)
      simp only [if_neg hp, Option.map_none, hword, true_iff]
      refine ⟨hne, ?_⟩
      rintro ⟨r', hr', hp', -⟩
      exact hp (Option.some.inj hr' ▸ hp')

/-- A clause with the text behind it. -/
def enclose (body rest : List Char) : List Char := '\x7b' :: (body ++ '\x7d' :: rest)

theorem trimStart_enclose (u body v : List Char) :
    Text.trimStart (u ++ enclose body v) = Text.trimStart u ++ enclose body v :=
  Text.trimStart_append_cons (by decide) u _

theorem trim_enclose (u body v : List Char) :
    Text.trim (u ++ enclose body v) = Text.trimStart u ++ enclose body (Text.trimEnd v) := by
  have hassoc (a v : List Char) : a ++ enclose body v = (a ++ '\x7b' :: body) ++ '\x7d' :: v := by
    simp [enclose]
  rw [Text.trim, trimStart_enclose, hassoc, Text.trimEnd_append_cons (by decide), ← hassoc]

/-- Reading goes by what stands in front of a clause: whatever the clause holds, nothing is read, or
the same text without marks in front of it. -/
def ReadsFront (f : List Char → Option (List Char)) : Prop :=
  ∀ u v, (∀ body, f (u ++ enclose body v) = none) ∨
    ∃ w u' v', u = w ++ u' ∧ Plain w ∧
      ∀ body, f (u ++ enclose body v) = some (u' ++ enclose body v')

namespace ReadsFront

variable {f g : List Char → Option (List Char)}

theorem bind (hf : ReadsFront f) (hg : ReadsFront g) : ReadsFront fun s ↦ (f s).bind g := by
  intro u v
  rcases hf u v with hnone | ⟨w, u', v', rfl, hw, hsome⟩
  · refine .inl fun body ↦ ?_
    simp only [hnone, Option.bind_none]
  · simp only [hsome, Option.bind_some]
    rcases hg u' v' with hnone | ⟨x, u'', v'', rfl, hx, hread⟩
    · exact .inl hnone
    · exact .inr ⟨w ++ x, u'', v'', (List.append_assoc ..).symm, hw.append hx, hread⟩

theorem map {t : List Char → List Char} (hf : ReadsFront f) (ht : ReadsFront fun s ↦ some (t s)) :
    ReadsFront fun s ↦ (f s).map t := by
  simp only [Option.map_eq_bind]
  exact hf.bind ht

theorem trimStart : ReadsFront fun s ↦ some (Text.trimStart s) := by
  intro u v
  obtain ⟨w, hu, hw⟩ := Text.trimStart_split u
  exact .inr ⟨w, Text.trimStart u, v, hu, plain_of_allBlank hw,
    fun body ↦ congrArg some (trimStart_enclose u body v)⟩

theorem trim : ReadsFront fun s ↦ some (Text.trim s) := by
  intro u v
  obtain ⟨w, hu, hw⟩ := Text.trimStart_split u
  exact .inr ⟨w, Text.trimStart u, Text.trimEnd v, hu, plain_of_allBlank hw,
    fun body ↦ congrArg some (trim_enclose u body v)⟩

theorem dropChar {c : Char} (hc : isMark c = false) : ReadsFront (dropChar? c) := by
  intro u v
  cases u with
  | nil =>
    refine .inl fun body ↦ dropChar?_of_ne fun r h ↦ ?_
    rw [← (List.cons.inj h).1] at hc
    cases hc
  | cons d u =>
    by_cases hd : d = c
    · subst hd
      exact .inr ⟨[d], u, v, rfl, List.forall_mem_singleton.2 hc, fun body ↦ dropChar?_self d _⟩
    · exact .inl fun body ↦ if_neg hd

theorem dropCall : ReadsFront (dropLetters? "call".toList) := by
  intro u v
  by_cases hp : "call".toList <+: Text.lower u
  · have htake : Text.lower (u.take 4) = "call".toList := by
      rw [Text.lower, List.map_take]
      exact (List.prefix_iff_eq_take.1 hp).symm
    have hlength : 4 ≤ u.length := by
      have h := hp.length_le
      rw [Text.lower, List.length_map] at h
      exact h
    refine .inr ⟨u.take 4, u.drop 4, v, (List.take_append_drop ..).symm, ?_, fun body ↦ ?_⟩
    · apply plain_of_lower
      rw [htake]
      decide
    · have hlong : "call".toList <+: Text.lower (u ++ enclose body v) := by
        rw [Text.lower, List.map_append]
        exact hp.trans (List.prefix_append ..)
      rw [dropLetters?_call, if_pos hlong, List.drop_append_of_le_length hlength]
  · refine .inl fun body ↦ ?_
    rw [dropLetters?_call, if_neg]
    intro hlong
    rw [Text.lower, List.map_append] at hlong
    rcases Nat.lt_or_ge (Text.lower u).length "call".toList.length with hlt | hge
    · -- the letters would reach the brace that opens the clause
      have hbrace : Text.lower u ++ ['\x7b'] <+: "call".toList :=
        List.prefix_of_prefix_length_le ⟨_, List.append_assoc ..⟩ hlong
          (by rw [List.length_append]; exact hlt)
      have hmem : '\x7b' ∈ "call".toList := hbrace.subset (by simp)
      exact absurd hmem (by decide)
    · exact hp (List.prefix_of_prefix_length_le hlong (List.prefix_append ..) hge)

/-- A call that assigns its result is read by what stands in front of a clause. -/
theorem assignedCall : ReadsFront assignedCall? := by
  have hassigned : ReadsFront assigned? :=
    (((dropChar (by decide)).map trimStart).bind (dropChar (by decide))).map trimStart
  have hcall := hassigned.bind (dropCall.map trim)
  rwa [← funext assignedCall?_eq] at hcall

end ReadsFront

/-- A keyword in front of a clause ends at a blank before it. -/
theorem keyword_front (u v : List Char) :
    (∀ body, Clause.ofKeyword? (firstWord (u ++ enclose body v)) = none) ∨
      ∃ k w u' v', u = w ++ u' ∧ Plain w ∧ ∀ body,
        Clause.ofKeyword? (firstWord (u ++ enclose body v)) = some k ∧
        Text.trim ((u ++ enclose body v).dropWhile fun c ↦ !Text.isBlank c) =
          u' ++ enclose body v' := by
  by_cases hb : ∀ c ∈ u, (!Text.isBlank c) = true
  · -- a word that holds the brace is no keyword
    refine .inl fun body ↦ ?_
    cases hk : Clause.ofKeyword? (firstWord (u ++ enclose body v)) with
    | none => rfl
    | some k =>
      have hmem : '\x7b' ∈ firstWord (u ++ enclose body v) := by
        rw [firstWord, List.takeWhile_append_of_pos hb, enclose,
          List.takeWhile_cons_of_pos (by decide)]
        simp
      exact absurd (plain_keyword hk _ hmem) (by decide)
  · have hsplit (t : List Char) : firstWord t ++ t.dropWhile (fun c ↦ !Text.isBlank c) = t :=
      List.takeWhile_append_dropWhile
    have hne : u.dropWhile (fun c ↦ !Text.isBlank c) ≠ [] := mt List.dropWhile_eq_nil_iff.1 hb
    have hrest (s : List Char) : (u ++ s).dropWhile (fun c ↦ !Text.isBlank c) =
        u.dropWhile (fun c ↦ !Text.isBlank c) ++ s := by
      rw [List.dropWhile_append, if_neg (mt List.isEmpty_iff.1 hne)]
    have hword (s : List Char) : firstWord (u ++ s) = firstWord u := by
      have hlong := hsplit (u ++ s)
      rw [hrest, ← List.append_assoc] at hlong
      exact List.append_cancel_right ((List.append_cancel_right hlong).trans (hsplit u).symm)
    simp only [hword, hrest]
    cases hk : Clause.ofKeyword? (firstWord u) with
    | none => exact .inl fun _ ↦ rfl
    | some k =>
      obtain ⟨w, hw, hblank⟩ := Text.trimStart_split (u.dropWhile fun c ↦ !Text.isBlank c)
      refine .inr ⟨k, firstWord u ++ w, _, Text.trimEnd v, ?_,
        (plain_keyword hk).append (plain_of_allBlank hblank), fun body ↦ ⟨rfl, trim_enclose _ _ _⟩⟩
      rw [List.append_assoc, ← hw]
      exact (hsplit u).symm

/-- What stands in front of a clause decides what is read around it. -/
theorem read?_front (u v : List Char) :
    (∀ body, Clause.read? (u ++ enclose body v) = none) ∨
      ∃ k w u' v', u = w ++ u' ∧ Plain w ∧
        ∀ body, Clause.read? (u ++ enclose body v) = some (k, u' ++ enclose body v') := by
  obtain ⟨w, hu, hw⟩ := Text.trimStart_split u
  have hplain := plain_of_allBlank hw
  unfold Clause.read?
  simp only [trim_enclose]
  generalize Text.trimStart u = t at hu
  rcases ReadsFront.assignedCall t (Text.trimEnd v) with hnone | ⟨x, u', v', rfl, hx, hread⟩
  · simp only [hnone]
    rcases keyword_front t (Text.trimEnd v) with hno | ⟨k, x, u', v', rfl, hx, hread⟩
    · exact .inl fun body ↦ by rw [← firstWord, hno]; rfl
    · refine .inr ⟨k, w ++ x, u', v', by rw [hu, List.append_assoc], hplain.append hx,
        fun body ↦ ?_⟩
      obtain ⟨hk, hrest⟩ := hread body
      rw [← firstWord, hk, hrest]
      rfl
  · refine .inr ⟨.call, w ++ x, u', v', by rw [hu, List.append_assoc], hplain.append hx,
      fun body ↦ ?_⟩
    rw [hread]

/-- A clause within others that are still open has no part in how the outermost of them is
closed. -/
theorem splitClause_around {r body : List Char} {n : Nat}
    (hr : (⟨.outside, 0⟩ : Scan).run? r = some ⟨.outside, n⟩) (hb : Balanced body) (b : List Char) :
    splitClause .outside 0 (r ++ enclose body b) =
      (splitClause .outside n b).map fun x ↦ (r ++ enclose body x.1, x.2) := by
  have hclause : (⟨.outside, n⟩ : Scan).run? ('\x7b' :: (body ++ ['\x7d'])) =
      some ⟨.outside, n⟩ := by
    have hinner := Scan.run?_within_braces hb (n + 1)
    rw [Nat.zero_add] at hinner
    change (⟨.outside, n + 1⟩ : Scan).run? (body ++ ['\x7d']) = _
    rw [Scan.run?_append, hinner]
    rfl
  have henclose (s : List Char) : enclose body s = '\x7b' :: (body ++ ['\x7d']) ++ s := by
    simp [enclose]
  rw [splitClause_behind hr, henclose, splitClause_behind hclause, Option.map_map]
  simp only [henclose]
  rfl

/-- Between two texts the expansion leaves every clause alone that is not known, and what it makes
of the two does not depend on the clause. -/
def KeepsClause (q : Quoting) (a b : List Char) : Prop :=
  ∃ a' b', ∀ body, Balanced body → Clause.read? body = none → ∀ t,
    expandFrom q (a ++ enclose body b) = .ok t → t = a' ++ enclose body b'

namespace KeepsClause

/-- The clause stands first. -/
theorem nil (b : List Char) : KeepsClause .outside [] b := by
  cases hb : expandFrom .outside b with
  | error e =>
    refine ⟨[], [], fun body hbal hc t ht ↦ ?_⟩
    rw [List.nil_append, enclose, expandFrom_unknown (splitClause_iff.2 ⟨rfl, hbal⟩) hc, hb] at ht
    cases ht
  | ok b' =>
    refine ⟨[], b', fun body hbal hc t ht ↦ ?_⟩
    rw [List.nil_append, enclose, expandFrom_unknown (splitClause_iff.2 ⟨rfl, hbal⟩) hc, hb] at ht
    exact (Except.ok.inj ht).symm

theorem copied {q : Quoting} {c : Char} {r b : List Char} (hopen : ¬(q = .outside ∧ c = '\x7b'))
    (h : KeepsClause (q.next c) r b) : KeepsClause q (c :: r) b := by
  obtain ⟨a', b', hkept⟩ := h
  refine ⟨c :: a', b', fun body hbal hc t ht ↦ ?_⟩
  obtain ⟨t', ht', rfl⟩ := expandFrom_cons hopen ht
  rw [hkept body hbal hc t' ht', List.cons_append]

/-- The clause stands behind another one. -/
theorem behind {r inner rest b : List Char} (hs : splitClause .outside 0 r = some (inner, rest))
    (h : KeepsClause .outside rest b) : KeepsClause .outside ('\x7b' :: r) b := by
  obtain ⟨a', b', hkept⟩ := h
  cases hr : Clause.read? inner with
  | none =>
    refine ⟨'\x7b' :: inner ++ '\x7d' :: a', b', fun body hbal hc t ht ↦ ?_⟩
    rw [List.cons_append, expandFrom_unknown (splitClause_append hs _) hr] at ht
    obtain ⟨t', ht', rfl⟩ := ok_of_map ht
    rw [hkept body hbal hc t' ht']
    simp
  | some p =>
    obtain ⟨k, rest'⟩ := p
    obtain ⟨x, hx⟩ := expand_body hs hr
    rw [expand] at hx
    refine ⟨k.lead ++ x ++ a', b', fun body hbal hc t ht ↦ ?_⟩
    rw [List.cons_append, expandFrom_known (splitClause_append hs _) hr, hx, Except.bind] at ht
    obtain ⟨t', ht', rfl⟩ := ok_of_map ht
    rw [hkept body hbal hc t' ht', List.append_assoc _ a']

/-- The clause stands within another one. -/
theorem within {r b : List Char} {n : Nat}
    (hr : (⟨.outside, 0⟩ : Scan).run? r = some ⟨.outside, n⟩)
    (h : ∀ w r' b', r = w ++ r' → Plain w → KeepsClause .outside r' b') :
    KeepsClause .outside ('\x7b' :: r) b := by
  cases hb : splitClause .outside n b with
  | none =>
    refine ⟨[], [], fun body hbal hc t ht ↦ ?_⟩
    have hs := splitClause_around hr hbal b
    rw [hb] at hs
    rw [List.cons_append, expandFrom_unclosed hs] at ht
    cases ht
  | some p =>
    obtain ⟨b₁, rest⟩ := p
    have hs {body : List Char} (hbal : Balanced body) :
        splitClause .outside 0 (r ++ enclose body b) = some (r ++ enclose body b₁, rest) := by
      rw [splitClause_around hr hbal, hb]
      rfl
    rcases read?_front r b₁ with hnone | ⟨k, w, r', b₂, hw, hplain, hread⟩
    · -- the outer clause is not known either, and stays as it is
      refine ⟨'\x7b' :: r, b₁ ++ '\x7d' :: ?_, fun body hbal hc t ht ↦ ?_⟩
      · exact (expandFrom .outside rest).toOption.getD []
      · rw [List.cons_append, expandFrom_unknown (hs hbal) (hnone body)] at ht
        obtain ⟨t', ht', rfl⟩ := ok_of_map ht
        rw [ht']
        simp [enclose, Except.toOption]
    · obtain ⟨a', b', hkept⟩ := h w r' b₂ hw hplain
      refine ⟨k.lead ++ a', b' ++ (expandFrom .outside rest).toOption.getD [],
        fun body hbal hc t ht ↦ ?_⟩
      rw [List.cons_append, expandFrom_known (hs hbal) (hread body)] at ht
      cases hx : expandFrom .outside (r' ++ enclose body b₂) with
      | error e =>
        rw [hx] at ht
        cases ht
      | ok x =>
        rw [hx, Except.bind] at ht
        obtain ⟨t', ht', rfl⟩ := ok_of_map ht
        rw [hkept body hbal hc x hx, ht']
        simp [enclose, Except.toOption]

end KeepsClause

/-- A clause that is not known stays as it is wherever it stands outside of quotes. -/
theorem keepsClause {q : Quoting} (a b : List Char) (hq : q.after a = .outside) :
    KeepsClause q a b := by
  induction hn : a.length using Nat.strongRecOn generalizing q a b with
  | _ n ih =>
    subst hn
    cases a with
    | nil =>
      have hout : q = .outside := hq
      exact hout ▸ .nil b
    | cons c r =>
      by_cases hopen : q = .outside ∧ c = '\x7b'
      · obtain ⟨rfl, rfl⟩ := hopen
        cases hs : splitClause .outside 0 r with
        | some p =>
          obtain ⟨inner, rest⟩ := p
          obtain ⟨rfl, hb⟩ := splitClause_iff.1 hs
          rw [(Quoting.literalsFrom_clause hb rest).2] at hq
          exact .behind hs (ih _ (by simp; omega) rest b hq rfl)
        | none =>
          obtain ⟨⟨p, d⟩, hr⟩ := splitClause_eq_none_iff.1 hs
          have hp : p = .outside := by
            have hafter := Quoting.after_eq_run ⟨.outside, 0⟩ r
            rw [Scan.run_of_run? hr] at hafter
            exact hafter.trans hq
          subst hp
          refine .within hr fun w r' b' hw hplain ↦ ih _ ?_ r' b' ?_ rfl
          · rw [hw, List.length_cons, List.length_append]
            omega
          · have hafter : Quoting.outside.after (w ++ r') = .outside := hw ▸ hq
            rw [Quoting.after_append,
              Quoting.after_unquoted fun c hc ↦ isQuote_of_isMark (hplain c hc)] at hafter
            exact hafter
      · exact .copied hopen (ih _ (by simp) r b hq rfl)

/-- The text of a clause between its braces. -/
def braced (body : String) : String := "\x7b" ++ body ++ "\x7d"

theorem toList_braced (a body b : String) :
    (a ++ braced body ++ b).toList = a.toList ++ enclose body.toList b.toList := by
  simp [braced, enclose]

/-- A clause whose head word is no keyword is left alone wherever it stands outside of quotes, with
all that it holds, and what the expansion makes of the text around it does not depend on it. That
leaves out a word behind an equals sign that starts with the letters of `call`: there the clause is
taken for a call of what follows the letters. -/
theorem expandText_unknown (a b : String) :
    ((Scan.run {} a.toList).quoting = .outside → ∃ a' b' : String,
      ∀ body : String, Balanced body.toList → ¬KnownHead body.toList → ¬CutCall body.toList →
        ∀ t, expandText (a ++ braced body ++ b) = .ok t → t = a' ++ braced body ++ b') ∧
    ∀ body : String, Balanced body.toList → ∀ r, assigned? (Text.trim body.toList) = some r →
      "call".toList <+: Text.lower r →
        expandText (braced body) =
          (expandText (trimText (String.ofList (r.drop 4)))).map ("CALL " ++ ·) := by
  constructor
  · intro ha
    have hafter : Quoting.outside.after a.toList = .outside :=
      (Quoting.after_eq_run {} a.toList).symm.trans ha
    obtain ⟨a', b', hkept⟩ := keepsClause a.toList b.toList hafter
    refine ⟨String.ofList a', String.ofList b', fun body hb hhead hcut t ht ↦ ?_⟩
    rw [expandText, toList_braced] at ht
    obtain ⟨x, hx, rfl⟩ := ok_of_map ht
    have hsame := hkept body.toList hb (read?_eq_none_iff.2 ⟨hhead, hcut⟩) x hx
    rw [← String.toList_inj, toList_braced, String.toList_ofList, String.toList_ofList,
      String.toList_ofList, hsame]
  · intro body hb r hr hcall
    have hread : Clause.read? body.toList =
        some (.call, Text.trim (String.ofList (r.drop 4)).toList) := by
      unfold Clause.read?
      dsimp only
      rw [assignedCall?_eq, hr, Option.bind_some, dropLetters?_call, if_pos hcall,
        String.toList_ofList]
      rfl
    exact expandText_clause hb (by simp [braced]) hread rfl

/-- Within two known clauses three clauses that are not known are left alone, one of them with a
known clause in it, and a word that starts with `call` is taken for it. -/
theorem expandText_unknown_nested :
    let a := "x \x7d \x7bfn f(\x7boj "
    let b := "\x7d, 2)\x7d '\x7b"
    let bodies := ["limit \x7bd '1'\x7d", "? = (call p)", "callx y"]
    (Scan.run {} a.toList).quoting = .outside ∧
      (∃ a' b' : String, ∀ body ∈ bodies,
        expandText (a ++ braced body ++ b) = .ok (a' ++ braced body ++ b')) ∧
      expandText (braced "?= calling()") = .ok "CALL ing()" := by
  intro a b bodies
  obtain ⟨hunknown, hcall⟩ := expandText_unknown a b
  have ha : (Scan.run {} a.toList).quoting = .outside := by decide +kernel
  obtain ⟨a', b', hkept⟩ := hunknown ha
  have hbodies : ∀ body ∈ bodies, Balanced body.toList ∧ Clause.read? body.toList = none ∧
      (expandText (a ++ braced body ++ b)).isOk := by decide +kernel
  refine ⟨ha, ⟨a', b', fun body hmem ↦ ?_⟩, ?_⟩
  · obtain ⟨hb, hread, hok⟩ := hbodies body hmem
    obtain ⟨hhead, hcut⟩ := read?_eq_none_iff.1 hread
    cases ht : expandText (a ++ braced body ++ b) with
    | error e =>
      rw [ht] at hok
      cases hok
    | ok t => rw [hkept body hb hhead hcut t ht]
  · rw [hcall "?= calling()" (by decide +kernel) "calling()".toList (by decide +kernel)
      (by decide +kernel)]
    decide +kernel

/-- Behind an equals sign a word that only starts with `call` is cut in two. -/
theorem cut_call_expanded :
    ¬∀ a body b : String, (Scan.run {} a.toList).quoting = .outside → Balanced body.toList →
      ¬KnownHead body.toList → ∀ t, expandText (a ++ braced body ++ b) = .ok t →
        ∃ a' b' : String, t = a' ++ braced body ++ b' := by
  intro h
  have hassigned : assigned? (Text.trim "?=callfoo()".toList) = some "callfoo()".toList := by
    decide +kernel
  have hhead : ¬KnownHead "?=callfoo()".toList := by
    rw [KnownHead, hassigned]
    decide +kernel
  obtain ⟨a', b', ht⟩ := h "" "?=callfoo()" "" rfl (by decide +kernel) hhead "CALL foo()"
    (by decide +kernel)
  have hbrace : '\x7b' ∈ "CALL foo()".toList := by
    rw [ht, toList_braced, enclose]
    simp
  exact absurd hbrace (by decide +kernel)

end Sql

end SqlSession
