import SqlSession.Config.Property

/-!
# Assignments of fields

Sources that give properties to the fields of a configuration are taken in their order, up to the
first one whose property cannot be read. A field then has the value of the last source that names
it, or the one that it had before.
-/

namespace SqlSession

open Property (Field)

/-- The values of a field. -/
def Property.Field.Value : Field → Type
  | .maxRows => Int32
  | .fetchSize => Int32
  | .maxFieldSize => Option Int32
  | .queryTimeout => Int32
  | .escapeProcessing => Bool
  | .resultSetType => ResultSetType
  | .concurrency => Concurrency

namespace Property.Field

/-- The value of a field in a configuration. -/
def get : (f : Field) → Config → f.Value
  | .maxRows, c => c.maxRows
  | .fetchSize, c => c.fetchSize
  | .maxFieldSize, c => c.maxFieldSize
  | .queryTimeout, c => c.queryTimeout
  | .escapeProcessing, c => c.escapeProcessing
  | .resultSetType, c => c.resultSetType
  | .concurrency, c => c.concurrency

/-- The configuration with another value of a field. -/
def put : (f : Field) → f.Value → Config → Config
  | .maxRows, v, c => { c with maxRows := v }
  | .fetchSize, v, c => { c with fetchSize := v }
  | .maxFieldSize, v, c => { c with maxFieldSize := v }
  | .queryTimeout, v, c => { c with queryTimeout := v }
  | .escapeProcessing, v, c => { c with escapeProcessing := v }
  | .resultSetType, v, c => { c with resultSetType := v }
  | .concurrency, v, c => { c with concurrency := v }

/-- The value that a property gives to a field. -/
def read : (f : Field) → Property → Except SqlError f.Value
  | .maxRows, p => Config.readInt (String.ofList p.key) p.value
  | .fetchSize, p => Config.readInt (String.ofList p.key) p.value
  | .maxFieldSize, p => (Config.readInt (String.ofList p.key) p.value).map some
  | .queryTimeout, p => Config.readInt (String.ofList p.key) p.value
  | .escapeProcessing, p => Config.readBool (String.ofList p.key) p.value
  | .resultSetType, p => (Config.readOption p.value : Except SqlError ResultSetType)
  | .concurrency, p => (Config.readOption p.value : Except SqlError Concurrency)

theorem get_put (f : Field) (v : f.Value) (c : Config) : f.get (f.put v c) = v := by
  cases f <;> rfl

theorem get_put_of_ne {f g : Field} (h : f ≠ g) (v : g.Value) (c : Config) :
    f.get (g.put v c) = f.get c := by
  cases f <;> cases g <;> first | rfl | exact absurd rfl h

theorem put_get (f : Field) (c : Config) : f.put (f.get c) c = c := by
  cases f <;> rfl

end Property.Field

/-- An assignment puts the value that is read into the field. -/
theorem Config.assign_eq (c : Config) (p : Property) (f : Field) :
    c.assign p f = (f.read p).map fun v ↦ f.put v c := by
  cases f with
  | maxFieldSize =>
    simp only [assign, Property.Field.read]
    cases readInt (String.ofList p.key) p.value <;> rfl
  | _ => rfl

section Sources

variable {σ : Type} (Gives : σ → Field → Property → Prop)

/-- Everything that the sources give to fields can be read. -/
def Readable (l : List σ) : Prop := ∀ x ∈ l, ∀ f p, Gives x f p → ∃ v, f.read p = .ok v

/-- No source names the field. -/
def Unnamed (l : List σ) (f : Field) : Prop := ∀ x ∈ l, ∀ p, ¬Gives x f p

/-- The last source that names the field gives it the property. -/
def Latest (l : List σ) (f : Field) (p : Property) : Prop :=
  ∃ before x after, l = before ++ x :: after ∧ Gives x f p ∧ Unnamed Gives after f

/-- The first source whose value cannot be read is refused with the error. -/
def FirstFault (l : List σ) (e : SqlError) : Prop :=
  ∃ before x after f p, l = before ++ x :: after ∧ Readable Gives before ∧ Gives x f p ∧
    f.read p = .error e

/-- The values of a field behind sources: that of the last one that names it, or else the one in the
configuration before. -/
inductive ValueBehind (c : Config) (l : List σ) (f : Field) : f.Value → Prop
  | latest {p : Property} {v : f.Value} (named : Latest Gives l f p) (value : f.read p = .ok v) :
    ValueBehind c l f v
  | unnamed (none : Unnamed Gives l f) : ValueBehind c l f (f.get c)

end Sources

namespace Latest

variable {σ : Type} {Gives : σ → Field → Property → Prop} {l : List σ} {f : Field} {p : Property}

/-- What stands in front of the sources does not change which is the last to name a field. -/
theorem cons (h : Latest Gives l f p) (x : σ) : Latest Gives (x :: l) f p := by
  obtain ⟨before, y, after, rfl, hy, hafter⟩ := h
  exact ⟨x :: before, y, after, rfl, hy, hafter⟩

/-- A field that the last source names is not one that none does. -/
theorem not_unnamed (h : Latest Gives l f p) : ¬Unnamed Gives l f := by
  obtain ⟨before, x, after, rfl, hx, -⟩ := h
  exact fun hnone ↦ hnone x (by simp) p hx

end Latest

namespace ValueBehind

variable {σ : Type} {Gives : σ → Field → Property → Prop} {c d : Config} {x : σ} {l : List σ}
  {f : Field} {v : f.Value}

/-- In front of the sources, one that does not name the field changes nothing. -/
theorem cons_unnamed (h : ValueBehind Gives d l f v) (hsame : f.get d = f.get c)
    (hx : ∀ p, ¬Gives x f p) : ValueBehind Gives c (x :: l) f v := by
  cases h with
  | latest named value => exact .latest (named.cons x) value
  | unnamed none =>
    rw [hsame]
    exact .unnamed (List.forall_mem_cons.2 ⟨hx, none⟩)

/-- In front of the sources, one that names the field gives the value that it then has before
them. -/
theorem cons_named {p : Property} (h : ValueBehind Gives d l f v) (hx : Gives x f p)
    (hvalue : f.read p = .ok (f.get d)) : ValueBehind Gives c (x :: l) f v := by
  cases h with
  | latest named value => exact .latest (named.cons x) value
  | unnamed none => exact .latest ⟨[], x, l, rfl, hx, none⟩ hvalue

end ValueBehind

/-- The configuration with what the sources give to fields, up to the first that cannot be read, and
the error for that. -/
def Config.takeFrom {σ : Type} (gives : σ → Option (Field × Property)) (c : Config) :
    List σ → Config × Option SqlError
  | [] => (c, none)
  | x :: r =>
    match gives x with
    | none => c.takeFrom gives r
    | some (f, p) =>
      match f.read p with
      | .ok v => (f.put v c).takeFrom gives r
      | .error e => (c, some e)

namespace Config

/-- Sources that stand for others are taken as those. -/
theorem takeFrom_map {σ τ : Type} (gives : σ → Option (Field × Property)) (g : τ → σ) (c : Config)
    (l : List τ) : c.takeFrom gives (l.map g) = c.takeFrom (fun x ↦ gives (g x)) l := by
  induction l generalizing c with
  | nil => rfl
  | cons x r ih => simp only [List.map_cons, takeFrom, ih]

/-- Sources that give nothing can be left out. -/
theorem takeFrom_filter {σ : Type} {gives : σ → Option (Field × Property)} {keep : σ → Bool}
    (h : ∀ x, keep x = false → gives x = none) (c : Config) (l : List σ) :
    c.takeFrom gives (l.filter keep) = c.takeFrom gives l := by
  induction l generalizing c with
  | nil => rfl
  | cons x r ih =>
    cases hx : keep x with
    | false => rw [List.filter_cons_of_neg (by simp [hx]), takeFrom, h x hx, ih]
    | true =>
      rw [List.filter_cons_of_pos hx]
      simp only [takeFrom, ih]

section Sources

variable {σ : Type} {gives : σ → Option (Field × Property)} {Gives : σ → Field → Property → Prop}
  (hg : ∀ x f p, gives x = some (f, p) ↔ Gives x f p)

include hg

/-- Readable sources are all taken, and what comes behind them is taken from there. -/
theorem takeFrom_append {a : List σ} (h : Readable Gives a) (c : Config) (b : List σ) :
    (c.takeFrom gives a).2 = none ∧
      c.takeFrom gives (a ++ b) = (c.takeFrom gives a).1.takeFrom gives b := by
  induction a generalizing c with
  | nil => exact ⟨rfl, rfl⟩
  | cons x r ih =>
    have hr : Readable Gives r := fun y hy ↦ h y (List.mem_cons_of_mem x hy)
    rw [List.cons_append, takeFrom, takeFrom]
    cases hx : gives x with
    | none => exact ih hr c
    | some fp =>
      obtain ⟨f, p⟩ := fp
      obtain ⟨v, hv⟩ := h x List.mem_cons_self f p ((hg x f p).1 hx)
      dsimp only
      rw [hv]
      exact ih hr (f.put v c)

/-- A source that cannot be read ends the taking. -/
theorem takeFrom_fault {before after : List σ} {x : σ} {f : Field} {p : Property} {e : SqlError}
    (h : Readable Gives before) (hx : Gives x f p) (he : f.read p = .error e) (c : Config) :
    c.takeFrom gives (before ++ x :: after) = ((c.takeFrom gives before).1, some e) := by
  rw [(takeFrom_append hg h c _).2, takeFrom, (hg x f p).2 hx]
  dsimp only
  rw [he]

/-- All sources can be read, or there is a first one that cannot. -/
theorem readable_or_fault (l : List σ) : Readable Gives l ∨ ∃ e, FirstFault Gives l e := by
  induction l with
  | nil => exact .inl fun x hx ↦ by simp at hx
  | cons x r ih =>
    have hbehind (h : ∀ f p, Gives x f p → ∃ v, f.read p = .ok v) :
        Readable Gives (x :: r) ∨ ∃ e, FirstFault Gives (x :: r) e := by
      rcases ih with hr | ⟨e, before, y, after, f, p, rfl, hbefore, hy, he⟩
      · exact .inl (List.forall_mem_cons.2 ⟨h, hr⟩)
      · have hfront : Readable Gives (x :: before) := List.forall_mem_cons.2 ⟨h, hbefore⟩
        exact .inr ⟨e, x :: before, y, after, f, p, rfl, hfront, hy, he⟩
    cases hx : gives x with
    | none =>
      refine hbehind fun f p hgives ↦ ?_
      rw [(hg x f p).2 hgives] at hx
      cases hx
    | some fp =>
      obtain ⟨f, p⟩ := fp
      cases hv : f.read p with
      | ok v =>
        refine hbehind fun g q hgives ↦ ?_
        rw [(hg x g q).2 hgives] at hx
        obtain ⟨rfl, rfl⟩ := Prod.mk.inj (Option.some.inj hx)
        exact ⟨v, hv⟩
      | error e =>
        have hnone : Readable Gives [] := fun y hy ↦ by simp at hy
        exact .inr ⟨e, [], x, r, f, p, rfl, hnone, (hg x f p).1 hx, hv⟩

/-- All is taken exactly if all can be read. -/
theorem takeFrom_ok_iff {c : Config} {l : List σ} :
    (c.takeFrom gives l).2 = none ↔ Readable Gives l := by
  constructor
  · intro h
    rcases readable_or_fault hg l with hl | ⟨e, before, x, after, f, p, rfl, hbefore, hx, he⟩
    · exact hl
    · rw [takeFrom_fault hg hbefore hx he] at h
      cases h
  · exact fun h ↦ (takeFrom_append hg h c []).1

/-- The taking ends with the error of the first source that cannot be read. -/
theorem takeFrom_error_iff {c : Config} {l : List σ} {e : SqlError} :
    (c.takeFrom gives l).2 = some e ↔ FirstFault Gives l e := by
  constructor
  · intro h
    rcases readable_or_fault hg l with hl | ⟨e', before, x, after, f, p, rfl, hbefore, hx, he⟩
    · rw [(takeFrom_ok_iff hg).2 hl] at h
      cases h
    · rw [takeFrom_fault hg hbefore hx he] at h
      rw [← Option.some.inj h]
      exact ⟨before, x, after, f, p, rfl, hbefore, hx, he⟩
  · rintro ⟨before, x, after, f, p, rfl, hbefore, hx, he⟩
    rw [takeFrom_fault hg hbefore hx he]

/-- The last source that names a field is only one. -/
theorem latest_unique {l : List σ} {f : Field} {p q : Property} (hp : Latest Gives l f p)
    (hq : Latest Gives l f q) : p = q := by
  obtain ⟨a, x, after, rfl, hx, hafter⟩ := hp
  obtain ⟨b, y, after', hl, hy, hafter'⟩ := hq
  have hsame (hxy : x = y) : p = q := by
    subst hxy
    exact (Prod.mk.inj (Option.some.inj (((hg _ _ _).2 hx).symm.trans ((hg _ _ _).2 hy)))).2
  -- the two splits are the same, or one of the two sources is behind the other
  rcases List.append_eq_append_iff.1 hl with ⟨t, rfl, ht⟩ | ⟨t, rfl, ht⟩
  · cases t with
    | nil => exact hsame (List.cons.inj ht).1
    | cons z t => exact (hafter y (by rw [(List.cons.inj ht).2]; simp) q hy).elim
  · cases t with
    | nil => exact hsame (List.cons.inj ht).1.symm
    | cons z t => exact (hafter' x (by rw [(List.cons.inj ht).2]; simp) p hx).elim

/-- Behind readable sources a field has the value of the last one that names it, or the one that it
had before. -/
theorem valueBehind_takeFrom {c : Config} {l : List σ} (h : Readable Gives l) (f : Field) :
    ValueBehind Gives c l f (f.get (c.takeFrom gives l).1) := by
  induction l generalizing c with
  | nil => exact .unnamed fun x hx ↦ by simp at hx
  | cons x r ih =>
    have hr : Readable Gives r := fun y hy ↦ h y (List.mem_cons_of_mem x hy)
    rw [takeFrom]
    cases hx : gives x with
    | none =>
      refine (ih hr).cons_unnamed rfl fun p hgives ↦ ?_
      rw [(hg x f p).2 hgives] at hx
      cases hx
    | some gp =>
      obtain ⟨g, p⟩ := gp
      obtain ⟨v, hv⟩ := h x List.mem_cons_self g p ((hg x g p).1 hx)
      dsimp only
      rw [hv]
      by_cases hfg : f = g
      · subst hfg
        exact (ih hr).cons_named ((hg x f p).1 hx) (by rw [hv, Property.Field.get_put])
      · refine (ih hr).cons_unnamed (Property.Field.get_put_of_ne hfg v c) fun q hgives ↦ ?_
        rw [(hg x f q).2 hgives] at hx
        exact hfg (Prod.mk.inj (Option.some.inj hx)).1

/-- A field has at most one value behind sources. -/
theorem valueBehind_unique {c : Config} {l : List σ} {f : Field} {v w : f.Value}
    (hv : ValueBehind Gives c l f v) (hw : ValueBehind Gives c l f w) : v = w := by
  cases hv with
  | latest hp hv =>
    cases hw with
    | latest hq hw =>
      rw [latest_unique hg hp hq, hw] at hv
      exact (Except.ok.inj hv).symm
    | unnamed none => exact (hp.not_unnamed none).elim
  | unnamed none =>
    cases hw with
    | latest hq => exact (hq.not_unnamed none).elim
    | unnamed => rfl

theorem valueBehind_iff {c : Config} {l : List σ} (h : Readable Gives l) {f : Field} {v : f.Value} :
    ValueBehind Gives c l f v ↔ v = f.get (c.takeFrom gives l).1 := by
  constructor
  · exact fun hv ↦ valueBehind_unique hg hv (valueBehind_takeFrom hg h f)
  · rintro rfl
    exact valueBehind_takeFrom hg h f

end Sources

end Config

end SqlSession
