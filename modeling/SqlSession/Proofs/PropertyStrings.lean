import SqlSession.Proofs.FieldAssignments
import SqlSession.Proofs.PropertyNames
import SqlSession.Proofs.PropertyParts

/-!
# What property strings do

The parts of a property string are sources of fields. What two property strings do one after the
other they do joined by a semicolon, if the first one leaves no brace open.
-/

namespace SqlSession.Config

open Property (Field Assigns Splits assignment? deepest depth openBraces parts partsFrom)

/-- What is left of two applications, the second one made if the first one has no error. -/
def Applied.followedBy (a : Applied) (next : Config → Applied) : Applied :=
  match a.error with
  | some _ => a
  | none =>
    let b := next a.config
    { b with ignored := a.ignored ++ b.ignored }

/-- Parts are taken one after the other. -/
theorem takeParts_append (c : Config) (ps qs : List (List Char)) :
    c.takeParts (ps ++ qs) = (c.takeParts ps).followedBy (·.takeParts qs) := by
  induction ps generalizing c with
  | nil => rfl
  | cons part r ih =>
    rw [List.cons_append, takeParts, takeParts]
    cases Property.ofPart? part with
    | none => exact ih c
    | some p =>
      dsimp only
      cases Field.ofKey? p.key with
      | none =>
        dsimp only
        rw [ih c]
        unfold Applied.followedBy
        cases he : (c.takeParts r).error <;> simp [he]
      | some f =>
        dsimp only
        cases c.assign p f with
        | ok c' => exact ih c'
        | error e => rfl

/-- Taking parts is taking what they assign. -/
theorem takeParts_eq_takeFrom (c : Config) (ps : List (List Char)) :
    (c.takeParts ps).config = (c.takeFrom assignment? ps).1 ∧
      (c.takeParts ps).error = (c.takeFrom assignment? ps).2 := by
  induction ps generalizing c with
  | nil => exact ⟨rfl, rfl⟩
  | cons part r ih =>
    rw [takeParts, takeFrom, assignment?]
    cases Property.ofPart? part with
    | none => exact ih c
    | some p =>
      dsimp only [Option.bind_some]
      cases Field.ofKey? p.key with
      | none => exact ih c
      | some f =>
        dsimp only [Option.map_some]
        rw [assign_eq]
        cases f.read p with
        | ok v => exact ih (f.put v c)
        | error e => exact ⟨rfl, rfl⟩

/-- A blank part has no equals sign. -/
theorem ofPart?_of_blank {part : List Char} (h : Text.allBlank part = true) :
    Property.ofPart? part = none := by
  refine Option.eq_none_iff_forall_not_mem.2 fun p hp ↦ ?_
  obtain ⟨name, value, rfl, -⟩ := Property.ofPart?_eq_some_iff.1 hp
  simp [Text.allBlank, Text.isBlank, Text.blankRanges] at h

/-- Blank parts can be left out. -/
theorem takeParts_filter (c : Config) (ps : List (List Char)) :
    c.takeParts (ps.filter fun p ↦ !Text.allBlank p) = c.takeParts ps := by
  induction ps generalizing c with
  | nil => rfl
  | cons part r ih =>
    cases hb : Text.allBlank part with
    | true =>
      rw [List.filter_cons_of_neg (by simp [hb]), ih, takeParts, ofPart?_of_blank hb]
    | false =>
      rw [List.filter_cons_of_pos (by simp [hb]), takeParts, takeParts]
      simp only [ih]

/-- The parts before the first one that cannot be taken are what the configuration holds. -/
theorem takeParts_error {c : Config} {ps : List (List Char)} {e : SqlError}
    (h : (c.takeParts ps).error = some e) :
    ∃ before part after f p, ps = before ++ part :: after ∧ Readable Assigns before ∧
      Assigns part f p ∧ f.read p = .error e ∧
      ∀ g v, ValueBehind Assigns c before g v ↔ v = g.get (c.takeParts ps).config := by
  have hg := Property.assignment?_eq_some_iff
  rw [(takeParts_eq_takeFrom c ps).2] at h
  obtain ⟨before, part, after, f, p, rfl, hbefore, hpart, he⟩ := (takeFrom_error_iff hg).1 h
  refine ⟨before, part, after, f, p, rfl, hbefore, hpart, he, fun g v ↦ ?_⟩
  rw [(takeParts_eq_takeFrom c _).1, takeFrom_fault hg hbefore hpart he]
  exact valueBehind_iff hg hbefore

/-- Property strings compose at semicolons: joined behind one that leaves no brace open, a property
string does what the two do one after the other. One that fails leaves the assignments of the parts
before the failing one. The parts are what stands between the semicolons outside of braces, which
determines them, and the blank ones have no effect. The braces that are open are counted, as far as
the counter goes. -/
theorem properties_compose (c : Config) (a b : String) :
    (openBraces a.toList = 0 →
      c.withProperties (a ++ ";" ++ b) = (c.withProperties a).followedBy (·.withProperties b)) ∧
    (∀ e, (c.withProperties a).error = some e →
      ∃ before part after f p, parts a.toList = before ++ part :: after ∧
        Readable Assigns before ∧ Assigns part f p ∧ f.read p = .error e ∧
        ∀ g v, ValueBehind Assigns c before g v ↔ v = g.get (c.withProperties a).config) ∧
    (∃ ps, Splits 0 a.toList ps ∧ (∀ qs, Splits 0 a.toList qs → qs = ps) ∧
      parts a.toList = ps.filter (fun p ↦ !Text.allBlank p) ∧
      c.withProperties a = c.takeParts ps) ∧
    (∀ u, u <+: a.toList → u.count '\x7b' ≤ deepest → depth 0 u = openBraces u) := by
  refine ⟨fun ha ↦ ?_, fun e ↦ takeParts_error,
    ⟨partsFrom 0 a.toList, Property.splits_partsFrom 0 a.toList, fun qs hqs ↦ hqs.eq_partsFrom, rfl,
      takeParts_filter c _⟩, fun u _ ↦ Property.depth_eq_openBraces⟩
  have hclosed : depth 0 a.toList = 0 :=
    Nat.le_zero.1 (ha ▸ Property.depth_le_openBraces a.toList)
  have hjoin : (a ++ ";" ++ b).toList = a.toList ++ ';' :: b.toList := by simp
  rw [withProperties, hjoin, Property.parts_join hclosed, takeParts_append]
  rfl

/-- A semicolon inside braces does not separate, and what fails first is the last part before the
join. -/
theorem properties_compose_braced :
    openBraces "max_rows=\x7b5\x7d; ;Fetch_Size=\x7b1;2\x7d".toList = 0 ∧
    depth 0 "max_rows=\x7b5\x7d; ;Fetch_Size=\x7b1".toList = 1 ∧
    (({} : Config).withProperties
        ("max_rows=\x7b5\x7d; ;Fetch_Size=\x7b1;2\x7d" ++ ";" ++ "querytimeout=3")).config =
      { maxRows := 5 } ∧
    ∃ before part after f p,
      parts "max_rows=\x7b5\x7d; ;Fetch_Size=\x7b1;2\x7d".toList = before ++ part :: after ∧
        Readable Assigns before ∧ Assigns part f p ∧
        f.read p = .error (.invalidArgument (.notAnIntegerFor "fetchsize" "1;2")) := by
  have hall := properties_compose {} "max_rows=\x7b5\x7d; ;Fetch_Size=\x7b1;2\x7d" "querytimeout=3"
  have hclosed : openBraces "max_rows=\x7b5\x7d; ;Fetch_Size=\x7b1;2\x7d".toList = 0 := by decide
  obtain ⟨before, part, after, f, p, hparts, hbefore, hpart, he, -⟩ :=
    hall.2.1 (.invalidArgument (.notAnIntegerFor "fetchsize" "1;2")) (by decide)
  refine ⟨hclosed, ?_, ?_, before, part, after, f, p, hparts, hbefore, hpart, he⟩
  · rw [hall.2.2.2 _ ⟨";2\x7d".toList, by decide⟩ (by decide)]
    decide
  · rw [hall.1 hclosed]
    decide

end SqlSession.Config
