import SqlSession.Proofs.PropertyStrings
import SqlSession.Proofs.PropertyValues

/-!
# The precedence of configuration sources

A configuration is resolved from four variables of the environment and the parts of a property
string, if all that they give to fields can be read. A field then has the value of the last part
that names it, without one that of its variable, and without that the default.
-/

namespace SqlSession

open Property (Field Assigns Named assignment? parts)

/-- The environment variable of a field that has one. -/
def Property.Field.variable? : Field → Option String
  | .maxRows => some "STATEMENT_MAX_ROWS"
  | .fetchSize => some "STATEMENT_FETCH_SIZE"
  | .queryTimeout => some "STATEMENT_QUERY_TIMEOUT"
  | .escapeProcessing => some "STATEMENT_ESCAPE_PROCESSING"
  | _ => none

/-- The variable of the field is set, to the value of the property. -/
def Property.Field.SetTo (env : String → Option String) (f : Field) (p : Property) : Prop :=
  ∃ name value, f.variable? = some name ∧ env name = some value ∧ p = ⟨name.toList, value.toList⟩

theorem Property.Field.SetTo.unique {env : String → Option String} {f : Field} {p q : Property}
    (hp : f.SetTo env p) (hq : f.SetTo env q) : p = q := by
  obtain ⟨name, value, hname, hvalue, rfl⟩ := hp
  obtain ⟨name', value', hname', hvalue', rfl⟩ := hq
  rw [Option.some.inj (hname.symm.trans hname')] at hvalue ⊢
  rw [Option.some.inj (hvalue.symm.trans hvalue')]

/-- What a configuration is resolved from. -/
inductive Source where
  | environment (f : Field)
  | part (text : List Char)

namespace Source

/-- The property that a source gives to a field. -/
inductive Gives (env : String → Option String) : Source → Field → Property → Prop
  | environment {f : Field} {p : Property} (set : f.SetTo env p) : Gives env (.environment f) f p
  | part {text : List Char} {f : Field} {p : Property} (assigns : Assigns text f p) :
    Gives env (.part text) f p

/-- The field and the property that a source gives, if any. -/
def gives? (env : String → Option String) : Source → Option (Field × Property)
  | .environment f =>
    f.variable?.bind fun name ↦ (env name).map fun value ↦ (f, ⟨name.toList, value.toList⟩)
  | .part text => assignment? text

theorem gives?_eq_some_iff {env : String → Option String} (x : Source) (f : Field) (p : Property) :
    gives? env x = some (f, p) ↔ Gives env x f p := by
  cases x with
  | environment g =>
    simp only [gives?, Option.bind_eq_some_iff, Option.map_eq_some_iff]
    constructor
    · rintro ⟨name, hname, value, hvalue, hpair⟩
      obtain ⟨rfl, rfl⟩ := Prod.mk.inj hpair
      exact .environment ⟨name, value, hname, hvalue, rfl⟩
    · rintro ⟨name, value, hname, hvalue, rfl⟩
      exact ⟨name, hname, value, hvalue, rfl⟩
  | part text =>
    refine (Property.assignment?_eq_some_iff text f p).trans ⟨.part, fun h ↦ ?_⟩
    cases h with
    | part assigns => exact assigns

/-- The variables in the order in which they are read. -/
def fromEnvironment : List Source :=
  [.environment .maxRows, .environment .fetchSize, .environment .queryTimeout,
    .environment .escapeProcessing]

/-- All sources: the variables, then the parts of the property string. -/
def all (properties : String) : List Source :=
  fromEnvironment ++ (parts properties.toList).map .part

/-- A field with a variable has it among the variables. -/
theorem mem_fromEnvironment {f : Field} {name : String} (h : f.variable? = some name) :
    .environment f ∈ fromEnvironment := by
  cases f <;> cases h <;> simp [fromEnvironment]

/-- Of the variables that one gives to a field which is its own. -/
theorem setTo_of_mem_fromEnvironment {env : String → Option String} {x : Source} {f : Field}
    {p : Property} (hx : x ∈ fromEnvironment) (h : Gives env x f p) : f.SetTo env p := by
  cases h with
  | environment set => exact set
  | part => simp [fromEnvironment] at hx

end Source

namespace Config

/-- The configuration, or the error. -/
def outcome (r : Config × Option SqlError) : Except SqlError Config :=
  match r.2 with
  | none => .ok r.1
  | some e => .error e

theorem outcome_ok_iff {r : Config × Option SqlError} {c : Config} :
    outcome r = .ok c ↔ r.2 = none ∧ r.1 = c := by
  unfold outcome
  split <;> simp_all

theorem outcome_error_iff {r : Config × Option SqlError} {e : SqlError} :
    outcome r = .error e ↔ r.2 = some e := by
  unfold outcome
  split <;> simp_all

/-- A variable is read into its field before what comes behind it is taken. -/
theorem outcome_takeFrom_variable {env : String → Option String} {f : Field} {name : String}
    {read : String → List Char → Except SqlError f.Value} (hname : f.variable? = some name)
    (hread : ∀ value, read name value = f.read ⟨name.toList, value⟩) (c : Config)
    (r : List Source) :
    outcome (c.takeFrom (Source.gives? env) (.environment f :: r)) =
      (variableOr env name (f.get c) read).bind fun v ↦
        outcome ((f.put v c).takeFrom (Source.gives? env) r) := by
  rw [takeFrom, Source.gives?, hname, variableOr]
  dsimp only [Option.bind_some]
  cases env name with
  | none =>
    dsimp only [Option.map_none, Except.bind]
    rw [Field.put_get]
  | some value =>
    dsimp only [Option.map_some]
    rw [hread]
    cases f.read ⟨name.toList, value.toList⟩ <;> rfl

/-- Reading the environment is taking the variables. -/
theorem withEnvironment_eq (c : Config) (env : String → Option String) :
    c.withEnvironment env = outcome (c.takeFrom (Source.gives? env) Source.fromEnvironment) := by
  have hint (name : String) (value : List Char) :
      readInt name value = readInt (String.ofList name.toList) value := by
    rw [String.ofList_toList]
  have hbool (name : String) (value : List Char) :
      readBool name value = readBool (String.ofList name.toList) value := by
    rw [String.ofList_toList]
  rw [Source.fromEnvironment, outcome_takeFrom_variable rfl (hint "STATEMENT_MAX_ROWS")]
  refine congrArg (Except.bind _) (funext fun maxRows ↦ ?_)
  rw [outcome_takeFrom_variable rfl (hint "STATEMENT_FETCH_SIZE")]
  refine congrArg (Except.bind _) (funext fun fetchSize ↦ ?_)
  rw [outcome_takeFrom_variable rfl (hint "STATEMENT_QUERY_TIMEOUT")]
  refine congrArg (Except.bind _) (funext fun queryTimeout ↦ ?_)
  rw [outcome_takeFrom_variable rfl (hbool "STATEMENT_ESCAPE_PROCESSING")]
  rfl

theorem takeFrom_parts (c : Config) (env : String → Option String) (ps : List (List Char)) :
    c.takeFrom (Source.gives? env) (ps.map .part) = c.takeFrom assignment? ps :=
  takeFrom_map _ _ c ps

/-- The parts are taken behind the environment. -/
theorem resolve_eq_bind (properties : String) (env : String → Option String) :
    resolve properties env = (({} : Config).withEnvironment env).bind fun c ↦
      outcome (c.takeFrom assignment? (parts properties.toList)) := by
  refine congrArg (Except.bind _) (funext fun c ↦ ?_)
  rw [outcome, ← (takeParts_eq_takeFrom c _).1, ← (takeParts_eq_takeFrom c _).2]
  rfl

/-- Resolving is taking all sources. -/
theorem resolve_eq (properties : String) (env : String → Option String) :
    resolve properties env =
      outcome (({} : Config).takeFrom (Source.gives? env) (Source.all properties)) := by
  rw [resolve_eq_bind, withEnvironment_eq, Source.all]
  have hg := @Source.gives?_eq_some_iff env
  rcases readable_or_fault hg Source.fromEnvironment with
    hread | ⟨e, before, x, after, f, p, hvars, hbefore, hx, he⟩
  · obtain ⟨hnone, hbehind⟩ := takeFrom_append hg hread {} ((parts properties.toList).map .part)
    rw [hbehind, takeFrom_parts, outcome, hnone]
    rfl
  · rw [hvars, List.append_assoc, List.cons_append, takeFrom_fault hg hbefore hx he,
      takeFrom_fault hg hbefore hx he]
    rfl

/-- The values of a field by its precedence: the last part of the property string that names it is
over its environment variable, and that over the default. -/
inductive Settled (properties : String) (env : String → Option String) (f : Field) : f.Value → Prop
  | part {p : Property} {v : f.Value} (named : Latest Assigns (parts properties.toList) f p)
      (value : f.read p = .ok v) : Settled properties env f v
  | environment {p : Property} {v : f.Value} (unnamed : Unnamed Assigns (parts properties.toList) f)
      (set : f.SetTo env p) (value : f.read p = .ok v) : Settled properties env f v
  | default (unnamed : Unnamed Assigns (parts properties.toList) f) (unset : ∀ p, ¬f.SetTo env p) :
    Settled properties env f (f.get {})

/-- The variables leave a field with the value of its own, or with the default. -/
theorem takeFrom_fromEnvironment {env : String → Option String}
    (h : Readable (Source.Gives env) Source.fromEnvironment) (f : Field) :
    (∃ p, f.SetTo env p ∧ f.read p =
      .ok (f.get (({} : Config).takeFrom (Source.gives? env) Source.fromEnvironment).1)) ∨
    (∀ p, ¬f.SetTo env p) ∧
      f.get (({} : Config).takeFrom (Source.gives? env) Source.fromEnvironment).1 = f.get {} := by
  have hbehind := valueBehind_takeFrom (c := {}) Source.gives?_eq_some_iff h f
  generalize f.get (({} : Config).takeFrom (Source.gives? env) Source.fromEnvironment).1 = v
    at hbehind ⊢
  cases hbehind with
  | @latest p _ named value =>
    obtain ⟨before, x, after, hvars, hx, -⟩ := named
    have hmem : x ∈ Source.fromEnvironment := by rw [hvars]; simp
    exact .inl ⟨p, Source.setTo_of_mem_fromEnvironment hmem hx, value⟩
  | unnamed none =>
    refine .inr ⟨fun p hset ↦ ?_, rfl⟩
    have ⟨name, value, hname, _⟩ := hset
    exact none _ (Source.mem_fromEnvironment hname) p (.environment hset)

/-- The fields of a resolved configuration have their values by precedence. -/
theorem settled_resolve {properties : String} {env : String → Option String} {c : Config}
    (h : resolve properties env = .ok c) (f : Field) : Settled properties env f (f.get c) := by
  rw [resolve_eq] at h
  obtain ⟨hok, rfl⟩ := outcome_ok_iff.1 h
  have hread := (takeFrom_ok_iff Source.gives?_eq_some_iff).1 hok
  have hvars : Readable (Source.Gives env) Source.fromEnvironment :=
    fun x hx ↦ hread x (List.mem_append_left _ hx)
  have hparts : Readable Assigns (parts properties.toList) :=
    fun part hpart g p hassigns ↦ hread (.part part)
      (List.mem_append_right _ (List.mem_map_of_mem hpart)) g p (.part hassigns)
  rw [Source.all, (takeFrom_append Source.gives?_eq_some_iff hvars _ _).2, takeFrom_parts]
  have hfield := takeFrom_fromEnvironment hvars f
  generalize (({} : Config).takeFrom (Source.gives? env) Source.fromEnvironment).1 = d at hfield ⊢
  have hbehind := valueBehind_takeFrom (c := d) Property.assignment?_eq_some_iff hparts f
  generalize f.get (d.takeFrom assignment? (parts properties.toList)).1 = v at hbehind ⊢
  cases hbehind with
  | latest named value => exact .part named value
  | unnamed none =>
    rcases hfield with ⟨p, hset, hv⟩ | ⟨hunset, hv⟩
    · exact .environment none hset hv
    · rw [hv]
      exact .default none hunset

/-- A field has at most one value by precedence. -/
theorem settled_unique {properties : String} {env : String → Option String} {f : Field}
    {v w : f.Value} (hv : Settled properties env f v) (hw : Settled properties env f w) :
    v = w := by
  cases hv with
  | part hp hv =>
    cases hw with
    | part hq hw =>
      rw [latest_unique Property.assignment?_eq_some_iff hp hq, hw] at hv
      exact (Except.ok.inj hv).symm
    | environment none => exact (hp.not_unnamed none).elim
    | default none => exact (hp.not_unnamed none).elim
  | environment none hp hv =>
    cases hw with
    | part hq => exact (hq.not_unnamed none).elim
    | environment _ hq hw =>
      rw [hp.unique hq, hw] at hv
      exact (Except.ok.inj hv).symm
    | default _ unset => exact (unset _ hp).elim
  | default none unset =>
    cases hw with
    | part hq => exact (hq.not_unnamed none).elim
    | environment _ hq => exact (unset _ hq).elim
    | default => rfl

/-- The parts that name no field have no influence. -/
theorem resolve_congr {properties properties' : String} (env : String → Option String)
    (h : (parts properties'.toList).filter (fun part ↦ Named part) =
      (parts properties.toList).filter (fun part ↦ Named part)) :
    resolve properties' env = resolve properties env := by
  have hkept (part : List Char) (hpart : decide (Named part) = false) :
      assignment? part = none := by
    rw [decide_eq_false_iff_not, Property.named_iff] at hpart
    simpa using hpart
  rw [resolve_eq_bind, resolve_eq_bind]
  refine congrArg (Except.bind _) (funext fun c ↦ ?_)
  rw [← takeFrom_filter hkept, h, takeFrom_filter hkept]

/-- A configuration is resolved exactly if all that the environment and the property string give to
fields can be read, and the error is that of the first which cannot. Then every field has its value
by precedence, and the parts that name no field have no influence in any case. What is read is what
the text of a property denotes as a value of the field, and a text that denotes none is refused with
the error for its kind. -/
theorem resolve_precedence (properties : String) (env : String → Option String) :
    ((∃ c, resolve properties env = .ok c) ↔
      Readable (Source.Gives env) (Source.all properties)) ∧
    (∀ e, resolve properties env = .error e ↔
      FirstFault (Source.Gives env) (Source.all properties) e) ∧
    (∀ c, resolve properties env = .ok c → ∀ f v, Settled properties env f v ↔ v = f.get c) ∧
    (∀ properties', (parts properties'.toList).filter (fun part ↦ Named part) =
        (parts properties.toList).filter (fun part ↦ Named part) →
      resolve properties' env = resolve properties env) ∧
    ∀ (f : Field) (p : Property), (∀ v, f.read p = .ok v ↔ f.Denotes p.value v) ∧
      ∀ e, f.read p = .error e ↔ (∀ v, ¬f.Denotes p.value v) ∧ f.Refuses p e := by
  have hg := @Source.gives?_eq_some_iff env
  refine ⟨?_, fun e ↦ ?_, fun c hc f v ↦ ⟨fun hv ↦ settled_unique hv (settled_resolve hc f), ?_⟩,
    fun properties' ↦ resolve_congr env, fun f p ↦ ⟨fun v ↦ Field.read_ok_iff,
      fun e ↦ Field.read_error_iff⟩⟩
  · simp only [resolve_eq, outcome_ok_iff, exists_and_left, exists_eq', and_true]
    exact takeFrom_ok_iff hg
  · rw [resolve_eq, outcome_error_iff]
    exact takeFrom_error_iff hg
  · rintro rfl
    exact settled_resolve hc f

/-- The second fetch size is over that of the environment, which is over the default. -/
theorem resolve_precedence_repeated :
    let env := fun name ↦ if name = "STATEMENT_FETCH_SIZE" then some "3"
      else if name = "STATEMENT_MAX_ROWS" then some " 50 " else none
    resolve "FETCH_SIZE=\x7b7\x7d;colour=red;noise;fetchsize=9" env =
      .ok { maxRows := 50, fetchSize := 9 } ∧
    (∀ f v, Settled "FETCH_SIZE=\x7b7\x7d;colour=red;noise;fetchsize=9" env f v ↔
      v = f.get { maxRows := 50, fetchSize := 9 }) ∧
    resolve "FETCH_SIZE=\x7b7\x7d;fetchsize=9" env = .ok { maxRows := 50, fetchSize := 9 } := by
  intro env
  have hall := resolve_precedence "FETCH_SIZE=\x7b7\x7d;colour=red;noise;fetchsize=9" env
  have hok : resolve "FETCH_SIZE=\x7b7\x7d;colour=red;noise;fetchsize=9" env =
      .ok { maxRows := 50, fetchSize := 9 } := by rfl
  refine ⟨hok, hall.2.2.1 _ hok, ?_⟩
  rw [hall.2.2.2.1 "FETCH_SIZE=\x7b7\x7d;fetchsize=9" (by decide), hok]

end Config

end SqlSession
