import SqlSession.Config.Property

/-!
# What a part of a property string assigns

A part assigns a value to a field if its text up to the first equals sign, without the blanks around
it, spells a name of the field up to case and underscores. The value is the text behind the equals
sign, without the blanks around it and without the braces at either end of that.
-/

namespace SqlSession.Property

/-- The names of a field, in small letters and without underscores. -/
def Field.names : Field → List (List Char)
  | .maxRows => ["maxrows".toList]
  | .fetchSize => ["fetchsize".toList]
  | .maxFieldSize => ["maxfieldsize".toList]
  | .queryTimeout => ["querytimeout".toList, "querytimeoutsecs".toList]
  | .escapeProcessing => ["escapeprocessing".toList]
  | .resultSetType => ["resultsettype".toList]
  | .concurrency => ["resultsetconcurrency".toList]

theorem Field.ofKey?_eq_some_iff {key : List Char} {f : Field} :
    Field.ofKey? key = some f ↔ key ∈ f.names := by
  constructor
  · intro h
    unfold Field.ofKey? at h
    repeat' split at h
    all_goals cases h
    all_goals simp_all [names]
  · intro h
    cases f <;> simp only [names, List.mem_cons, List.not_mem_nil, or_false] at h
    case queryTimeout => rcases h with rfl | rfl <;> decide
    all_goals
      subst h
      decide

/-- A text spells a name: letter by letter in either case, with underscores anywhere. -/
inductive Spells : List Char → List Char → Prop
  | done : Spells [] []
  | underscore {s name : List Char} (rest : Spells s name) : Spells ('_' :: s) name
  | letter {c : Char} {s name : List Char} (hc : c ≠ '_') (rest : Spells s name) :
    Spells (c :: s) (c.toLower :: name)

theorem spells_iff {s name : List Char} :
    Spells s name ↔ Text.lower (s.filter fun c ↦ c ≠ '_') = name := by
  constructor
  · intro h
    induction h with
    | done => rfl
    | underscore _ ih => simpa using ih
    | letter hc _ ih => simp [hc, Text.lower, ← ih]
  · rintro rfl
    induction s with
    | nil => exact .done
    | cons c s ih =>
      by_cases hc : c = '_'
      · subst hc
        simpa using Spells.underscore ih
      · simpa [hc, Text.lower] using Spells.letter hc ih

/-- The text neither starts nor ends with a brace. -/
structure Bare (s : List Char) : Prop where
  head : ∀ c ∈ s.head?, isBrace c = false
  last : ∀ c ∈ s.getLast?, isBrace c = false

/-- The second text is what is left of the first one without the braces at either end. -/
def Bares (s t : List Char) : Prop :=
  ∃ u w, s = u ++ (t ++ w) ∧ u.all isBrace = true ∧ w.all isBrace = true ∧ Bare t

/-- Braces are taken off the front of a text as long as there are any. -/
theorem dropWhile_isBrace {u t : List Char} (hu : u.all isBrace = true)
    (ht : ∀ c ∈ t.head?, isBrace c = false) : (u ++ t).dropWhile isBrace = t := by
  rw [List.dropWhile_append_of_pos (List.all_eq_true.1 hu)]
  cases t with
  | nil => rfl
  | cons c r => exact List.dropWhile_cons_of_neg (by simp [ht c rfl])

/-- What is left does not start with a brace. -/
theorem head?_dropWhile_isBrace (s : List Char) :
    ∀ c ∈ (s.dropWhile isBrace).head?, isBrace c = false := by
  intro c hc
  have hnot := List.head?_dropWhile_not isBrace s
  rw [Option.mem_def.1 hc] at hnot
  exact hnot

theorem bares_iff {s t : List Char} : Bares s t ↔ trimBraces s = t := by
  constructor
  · rintro ⟨u, w, rfl, hu, hw, ht⟩
    have hw' : w.reverse.all isBrace = true := by simpa using hw
    have hlast : ∀ c ∈ t.reverse.head?, isBrace c = false := by
      rw [List.head?_reverse]
      exact ht.last
    cases t with
    | nil =>
      have hall : (u ++ w).all isBrace = true := by rw [List.all_append, hu, hw]; rfl
      have hnone := dropWhile_isBrace hall (t := []) (by simp)
      rw [List.append_nil] at hnone
      rw [trimBraces, List.nil_append, hnone]
      rfl
    | cons c r =>
      have hfront := dropWhile_isBrace hu (t := c :: r ++ w) (by simpa using ht.head)
      rw [trimBraces, hfront, List.reverse_append, dropWhile_isBrace hw' hlast,
        List.reverse_reverse]
  · rintro rfl
    have hmid : s.dropWhile isBrace =
        trimBraces s ++ ((s.dropWhile isBrace).reverse.takeWhile isBrace).reverse := by
      rw [trimBraces, ← List.reverse_append, List.takeWhile_append_dropWhile, List.reverse_reverse]
    refine ⟨s.takeWhile isBrace, ((s.dropWhile isBrace).reverse.takeWhile isBrace).reverse, ?_,
      List.all_takeWhile, by simp [List.all_reverse], ?_, ?_⟩
    · rw [← hmid, List.takeWhile_append_dropWhile]
    · intro c hc
      refine head?_dropWhile_isBrace s c ?_
      rw [hmid, List.head?_append, Option.mem_def.1 hc]
      rfl
    · rw [trimBraces, List.getLast?_reverse]
      exact head?_dropWhile_isBrace _

/-- A part names a field, and assigns it the value of the property. -/
def Assigns (part : List Char) (f : Field) (p : Property) : Prop :=
  ∃ name value, part = name ++ '=' :: value ∧ '=' ∉ name ∧ Spells (Text.trim name) p.key ∧
    p.key ∈ f.names ∧ Bares (Text.trim value) p.value

/-- The assignment of a part that names a field. -/
def assignment? (part : List Char) : Option (Field × Property) :=
  (ofPart? part).bind fun p ↦ (Field.ofKey? p.key).map fun f ↦ (f, p)

/-- A property is read from the text around the first equals sign. -/
theorem ofPart?_eq_some_iff {part : List Char} {p : Property} :
    ofPart? part = some p ↔ ∃ name value, part = name ++ '=' :: value ∧ '=' ∉ name ∧
      p = ⟨comparedKey name, trimBraces (Text.trim value)⟩ := by
  unfold ofPart?
  constructor
  · intro h
    have hsplit := List.takeWhile_append_dropWhile (p := fun c ↦ decide (c ≠ '=')) (l := part)
    have hnot := List.head?_dropWhile_not (fun c ↦ decide (c ≠ '=')) part
    have hname : '=' ∉ part.takeWhile fun c ↦ decide (c ≠ '=') := by
      intro hmem
      simpa using List.all_eq_true.1 List.all_takeWhile _ hmem
    cases hd : part.dropWhile fun c ↦ decide (c ≠ '=') with
    | nil =>
      rw [hd] at h
      cases h
    | cons c value =>
      rw [hd] at hsplit hnot h
      have hc : c = '=' := by simpa using hnot
      subst hc
      exact ⟨_, value, hsplit.symm, hname, (Option.some.inj h).symm⟩
  · rintro ⟨name, value, rfl, hname, rfl⟩
    have hall : ∀ c ∈ name, decide (c ≠ '=') = true := by
      intro c hc
      simp only [decide_eq_true_eq]
      rintro rfl
      exact hname hc
    rw [List.dropWhile_append_of_pos hall, List.takeWhile_append_of_pos hall]
    simp

theorem assignment?_eq_some_iff (part : List Char) (f : Field) (p : Property) :
    assignment? part = some (f, p) ↔ Assigns part f p := by
  simp only [assignment?, Option.bind_eq_some_iff, Option.map_eq_some_iff, ofPart?_eq_some_iff,
    Field.ofKey?_eq_some_iff, Assigns, spells_iff, bares_iff]
  constructor
  · rintro ⟨q, ⟨name, value, hpart, hname, rfl⟩, g, hkey, hpair⟩
    obtain ⟨rfl, rfl⟩ := Prod.mk.inj hpair
    exact ⟨name, value, hpart, hname, rfl, hkey, rfl⟩
  · rintro ⟨name, value, hpart, hname, hspell, hkey, hbare⟩
    refine ⟨p, ⟨name, value, hpart, hname, ?_⟩, f, hkey, rfl⟩
    rw [comparedKey, hspell, hbare]

/-- A part has a text before an equals sign that spells a name of a field. -/
def Named (part : List Char) : Prop :=
  ∃ name value key, ∃ f : Field, part = name ++ '=' :: value ∧ '=' ∉ name ∧
    Spells (Text.trim name) key ∧ key ∈ f.names

/-- Every part that names a field assigns something to it. -/
theorem named_iff {part : List Char} : Named part ↔ (assignment? part).isSome = true := by
  rw [Option.isSome_iff_exists]
  constructor
  · rintro ⟨name, value, key, f, hpart, hname, hspell, hkey⟩
    refine ⟨(f, ⟨key, trimBraces (Text.trim value)⟩), ?_⟩
    exact (assignment?_eq_some_iff _ _ _).2
      ⟨name, value, hpart, hname, hspell, hkey, bares_iff.2 rfl⟩
  · rintro ⟨⟨f, p⟩, h⟩
    obtain ⟨name, value, hpart, hname, hspell, hkey, -⟩ := (assignment?_eq_some_iff _ _ _).1 h
    exact ⟨name, value, p.key, f, hpart, hname, hspell, hkey⟩

instance : DecidablePred Named := fun _ ↦ decidable_of_iff _ named_iff.symm

end SqlSession.Property
