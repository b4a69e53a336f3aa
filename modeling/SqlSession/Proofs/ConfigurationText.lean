import SqlSession.Config.Text
import SqlSession.Proofs.FieldAssignments
import SqlSession.Proofs.JsonTexts

/-!
# The text of a configuration

A lawful codec writes a configuration as an object with one member for each field, in the order of
the fields, and takes from a member of an object the value of the field that it names. What it has
written is then read as the configuration that was written. The codec of JSON texts is lawful.
-/

namespace SqlSession

open Property (Field)
open Json (Literal)

namespace Property.Field

/-- The fields in the order of their declaration. -/
def declared : List Field :=
  [.maxFieldSize, .maxRows, .fetchSize, .queryTimeout, .escapeProcessing, .resultSetType,
    .concurrency]

/-- The name of a field in a text. -/
def jsonName : Field → String
  | .maxRows => "max_rows"
  | .fetchSize => "fetch_size"
  | .maxFieldSize => "max_field_size"
  | .queryTimeout => "query_timeout_secs"
  | .escapeProcessing => "escape_processing"
  | .resultSetType => "result_set_type"
  | .concurrency => "result_set_concurrency"

/-- The text that is written for a value of a field. -/
def text : (f : Field) → f.Value → List Char
  | .maxRows, n => Decimal.render (Int32.toInt n)
  | .fetchSize, n => Decimal.render (Int32.toInt n)
  | .maxFieldSize, none => "null".toList
  | .maxFieldSize, some n => Decimal.render (Int32.toInt n)
  | .queryTimeout, n => Decimal.render (Int32.toInt n)
  | .escapeProcessing, true => "true".toList
  | .escapeProcessing, false => "false".toList
  | .resultSetType, .forwardOnly => "\"forward_only\"".toList
  | .resultSetType, .scrollInsensitive => "\"scroll_insensitive\"".toList
  | .resultSetType, .scrollSensitive => "\"scroll_sensitive\"".toList
  | .concurrency, .readOnly => "\"read_only\"".toList
  | .concurrency, .updatable => "\"updatable\"".toList

/-- The text is read as the value of a field: an integer in any spelling that JSON has for it, and
any other value in its one text. -/
def Spells : (f : Field) → List Char → f.Value → Prop
  | .maxRows, s, n => Literal s (Int32.toInt n)
  | .fetchSize, s, n => Literal s (Int32.toInt n)
  | .maxFieldSize, s, some n => Literal s (Int32.toInt n)
  | .queryTimeout, s, n => Literal s (Int32.toInt n)
  | f, s, v => s = f.text v

/-- What is written for a value is read as that value. -/
theorem spells_text (f : Field) (v : f.Value) : f.Spells (f.text v) v := by
  cases f with
  | maxFieldSize =>
    cases v with
    | none => rfl
    | some n => exact Json.literal_render (Int32.toInt n)
  | escapeProcessing => rfl
  | resultSetType => rfl
  | concurrency => rfl
  | _ => exact Json.literal_render (Int32.toInt v)

/-- The name of a field stands for itself between quotes. -/
theorem jsonName_plain (f : Field) : f.jsonName.toList.all Json.isPlain = true := by
  cases f <;> decide

theorem jsonName_injective {f g : Field} (h : f.jsonName = g.jsonName) : f = g := by
  cases f <;> cases g <;> first | rfl | exact absurd h (by decide)

end Property.Field

namespace Config

/-- The name of a field and the text of its value. -/
def member (c : Config) (f : Field) : String × List Char := (f.jsonName, f.text (f.get c))

/-- The member has the name of a field and a text that is read as a value of it. -/
def Fits (m : String × List Char) : Prop :=
  ∃ (f : Field) (v : f.Value), m.1 = f.jsonName ∧ f.Spells m.2 v

/-- What is relied on of a codec. -/
structure Codec.Lawful (k : Codec) : Prop where
  /-- The fields are written in the order of their declaration. -/
  write_fields (c : Config) : k.write c = .ok (objectText (Field.declared.map c.member))
  /-- Fields that are missing have their defaults. -/
  read_empty : k.read (objectText []) = .ok {}
  /-- A member gives the field that it names, and no other member does, the value of its text. -/
  read_member {f : Field} {s : List Char} {v : f.Value} {ms : List (String × List Char)}
    {c : Config} (value : f.Spells s v) (fits : ∀ m ∈ ms, Fits m)
    (once : ∀ m ∈ ms, m.1 ≠ f.jsonName) (rest : k.read (objectText ms) = .ok c) :
    k.read (objectText ((f.jsonName, s) :: ms)) = .ok (f.put v c)

/-- The members of fields are read as the fields that they were written for. -/
theorem Codec.Lawful.read_fields {k : Codec} (hk : k.Lawful) (c : Config) {fs : List Field}
    (hnodup : fs.Nodup) : k.read (objectText (fs.map c.member)) =
      .ok (fs.foldr (fun f d ↦ f.put (f.get c) d) {}) := by
  induction fs with
  | nil => exact hk.read_empty
  | cons f fs ih =>
    obtain ⟨hf, hfs⟩ := List.nodup_cons.1 hnodup
    refine hk.read_member (f.spells_text (f.get c)) ?_ ?_ (ih hfs)
    · intro m hm
      obtain ⟨g, -, rfl⟩ := List.mem_map.1 hm
      exact ⟨g, g.get c, rfl, g.spells_text _⟩
    · intro m hm hname
      obtain ⟨g, hg, rfl⟩ := List.mem_map.1 hm
      rw [Field.jsonName_injective hname] at hg
      exact hf hg

/-- All fields put one after the other make up the configuration. -/
theorem foldr_put_declared (c : Config) :
    Field.declared.foldr (fun f d ↦ f.put (f.get c) d) {} = c := rfl

end Config

namespace Property.Field

/-- The JSON value of a value of a field. -/
def json : (f : Field) → f.Value → Json
  | .maxRows, n => .ofInt (Int32.toInt n)
  | .fetchSize, n => .ofInt (Int32.toInt n)
  | .maxFieldSize, none => .null
  | .maxFieldSize, some n => .ofInt (Int32.toInt n)
  | .queryTimeout, n => .ofInt (Int32.toInt n)
  | .escapeProcessing, b => .bool b
  | .resultSetType, t => .text (some (@Worded.word ResultSetType _ _ t).toList)
  | .concurrency, t => .text (some (@Worded.word Concurrency _ _ t).toList)

/-- The value of a field that a JSON value is taken for. -/
def ofJson? : (f : Field) → Json → Option f.Value
  | .maxRows => Config.readInt32?
  | .fetchSize => Config.readInt32?
  | .maxFieldSize => Config.readMaybeInt32?
  | .queryTimeout => Config.readInt32?
  | .escapeProcessing => Json.bool?
  | .resultSetType => fun v ↦ ((Config.readWord? v).bind Worded.ofWord? : Option ResultSetType)
  | .concurrency => fun v ↦ ((Config.readWord? v).bind Worded.ofWord? : Option Concurrency)

/-- A quoted word spells the word. -/
theorem spells_word {α : Type} [Coded α] [Worded α] {a : α} {s : List Char}
    (h : s = Config.quotedWord (Worded.word a)) :
    Json.Spells s (.text (some (Worded.word a).toList)) := by
  have hplain : wordLetters.all Json.isPlain = true := by decide
  rw [h]
  exact Json.spells_text (Worded.all_word hplain a)

/-- A text for a value spells its JSON value. -/
theorem Spells.json {f : Field} {s : List Char} {v : f.Value} (h : f.Spells s v) :
    Json.Spells s (f.json v) := by
  cases f with
  | maxFieldSize =>
    cases v with
    | none =>
      have hs : s = "null".toList := h
      rw [hs]
      exact Json.spells_null
    | some n => exact Json.spells_literal h
  | escapeProcessing =>
    cases v with
    | true =>
      rw [show s = "true".toList from h]
      exact Json.spells_bool true
    | false =>
      rw [show s = "false".toList from h]
      exact Json.spells_bool false
  | resultSetType =>
    have hs : s = Config.quotedWord (@Worded.word ResultSetType _ _ v) := by cases v <;> exact h
    exact spells_word hs
  | concurrency =>
    have hs : s = Config.quotedWord (@Worded.word Concurrency _ _ v) := by cases v <;> exact h
    exact spells_word hs
  | _ => exact Json.spells_literal h

/-- The JSON value of a value is taken for that value. -/
theorem ofJson?_json (f : Field) (v : f.Value) : f.ofJson? (f.json v) = some v := by
  have hint (n : Int32) : Config.readInt32? (.ofInt n.toInt) = some n := by
    rw [Config.readInt32?, Json.int?_ofInt, Option.bind_some, Decimal.toInt32?_toInt]
  cases f with
  | maxFieldSize =>
    cases v with
    | none => rfl
    | some n => exact congrArg (Option.map some) (hint n)
  | escapeProcessing => rfl
  | resultSetType => exact (@Worded.ofWord?_eq_some_iff ResultSetType _ _ _ v).2 rfl
  | concurrency => exact (@Worded.ofWord?_eq_some_iff Concurrency _ _ _ v).2 rfl
  | _ => exact hint v

end Property.Field

namespace Config

variable {members : List (List Char × Json)} {c : Config}

/-- A member under another name is passed over. -/
theorem field?_cons_of_ne {α : Type} {m : List Char × Json} {name : String}
    (h : m.1 ≠ name.toList) (default : α) (read : Json → Option α) :
    field? (m :: members) name default read = field? members name default read := by
  rw [field?, List.filter_cons_of_neg (by simpa using h), ← field?]

/-- The only member under a name is read. -/
theorem field?_cons_self {α : Type} {name : String} (h : ∀ m ∈ members, m.1 ≠ name.toList)
    (v : Json) (default : α) (read : Json → Option α) :
    field? ((name.toList, v) :: members) name default read = read v := by
  have hrest : members.filter (fun m ↦ m.1 == name.toList) = [] := by
    rw [List.filter_eq_nil_iff]
    exact fun m hm ↦ by simpa using h m hm
  rw [field?, List.filter_cons_of_pos (by simp), hrest]

/-- A configuration of members is one whose every field is read from them. -/
theorem ofMembers?_eq_some_iff : ofMembers? members = some c ↔
    ∀ f : Field, field? members f.jsonName (f.get {}) f.ofJson? = some (f.get c) := by
  constructor
  · intro h
    simp only [ofMembers?, Option.bind_eq_bind, Option.bind_eq_some_iff, Option.pure_def] at h
    obtain ⟨a, ha, b, hb, d, hd, e, he, g, hg, i, hi, j, hj, hc⟩ := h
    rw [← Option.some.inj hc]
    intro f
    cases f with
    | resultSetType => exact hi
    | concurrency => exact hj
    | _ => assumption
  · intro h
    simp only [ofMembers?, Option.bind_eq_bind, Option.bind_eq_some_iff, Option.pure_def]
    exact ⟨_, h .maxFieldSize, _, h .maxRows, _, h .fetchSize, _, h .queryTimeout, _,
      h .escapeProcessing, _, h .resultSetType, _, h .concurrency, rfl⟩

/-- Names that are texts are the names of the members. -/
theorem namedMembers?_some (members : List (List Char × Json)) :
    namedMembers? (members.map fun m ↦ (some m.1, m.2)) = some members := by
  induction members with
  | nil => rfl
  | cons m r ih => rw [List.map_cons, namedMembers?, ih, Option.map_some]

/-- What the standard codec reads are the members of an object in texts that spell their values. -/
theorem standard_read_ok_iff {ms : List Json.Member} (h : ∀ m ∈ ms, m.Sound) :
    Codec.standard.read (objectText (ms.map fun m ↦ (String.ofList m.name, m.text))) = .ok c ↔
      ofMembers? (ms.map fun m ↦ (m.name, m.value)) = some c := by
  have hchars : (objectText (ms.map fun m ↦ (String.ofList m.name, m.text))).toList =
      '\x7b' :: Json.Member.listChars ms ++ ['\x7d'] := by
    have hmember : Json.Member.chars =
        fun m ↦ '"' :: (String.ofList m.name).toList ++ ['"', ':'] ++ m.text := by
      funext m
      rw [Json.Member.chars, String.toList_ofList]
    rw [objectText, String.toList_ofList, Json.Member.listChars, List.map_map, hmember]
    rfl
  have hobject : (ms.map fun m ↦ (some m.name, m.value)) =
      (ms.map fun m ↦ (m.name, m.value)).map fun m ↦ (some m.1, m.2) := by simp
  rw [Codec.standard]
  dsimp only
  rw [hchars, (Json.spells_object h).read?, Option.bind_some, ofJson?, hobject, namedMembers?_some,
    Option.bind_some]
  cases ofMembers? (ms.map fun m ↦ (m.name, m.value)) <;> simp

/-- Members that fit are read from texts that spell their values. -/
theorem exists_sound {ms : List (String × List Char)} (h : ∀ m ∈ ms, Fits m) :
    ∃ js : List Json.Member, (∀ m ∈ js, m.Sound) ∧
      ms = js.map fun m ↦ (String.ofList m.name, m.text) := by
  induction ms with
  | nil => exact ⟨[], by simp, rfl⟩
  | cons m ms ih =>
    obtain ⟨hm, hms⟩ := List.forall_mem_cons.1 h
    obtain ⟨js, hjs, rfl⟩ := ih hms
    obtain ⟨f, v, hname, hv⟩ := hm
    obtain ⟨name, s⟩ := m
    have hname : name = f.jsonName := hname
    refine ⟨⟨f.jsonName.toList, s, f.json v⟩ :: js,
      List.forall_mem_cons.2 ⟨⟨f.jsonName_plain, hv.json⟩, hjs⟩, ?_⟩
    rw [List.map_cons, String.ofList_toList, hname]

/-- The codec of JSON texts is lawful. -/
theorem lawful_standard : Codec.standard.Lawful where
  write_fields c := by
    obtain ⟨size, rows, fetch, timeout, flag, type, concurrency⟩ := c
    have hflag : (if flag then "true".toList else "false".toList) =
        Field.text .escapeProcessing flag := by cases flag <;> rfl
    have htype : quotedWord (Worded.word type) = Field.text .resultSetType type := by
      cases type <;> rfl
    have hconcurrency : quotedWord (Worded.word concurrency) =
        Field.text .concurrency concurrency := by cases concurrency <;> rfl
    simp only [Codec.standard, render, hflag, htype, hconcurrency]
    cases size <;> rfl
  read_empty := by decide +kernel
  read_member := by
    intro f s v ms c hv hms honce hrest
    obtain ⟨js, hjs, rfl⟩ := exists_sound hms
    have hsound : ∀ m ∈ (⟨f.jsonName.toList, s, f.json v⟩ : Json.Member) :: js, m.Sound :=
      List.forall_mem_cons.2 ⟨⟨f.jsonName_plain, hv.json⟩, hjs⟩
    have hothers : ∀ m ∈ js.map fun m ↦ (m.name, m.value), m.1 ≠ f.jsonName.toList := by
      intro m hm hname
      obtain ⟨x, hx, rfl⟩ := List.mem_map.1 hm
      refine honce _ (List.mem_map_of_mem hx) ?_
      rw [← String.toList_inj, String.toList_ofList]
      exact hname
    have hfields := ofMembers?_eq_some_iff.1 ((standard_read_ok_iff hjs).1 hrest)
    have hread := (standard_read_ok_iff hsound (c := f.put v c)).2 (ofMembers?_eq_some_iff.2 ?_)
    · rwa [List.map_cons, String.ofList_toList] at hread
    · intro g
      rw [List.map_cons]
      by_cases hfg : g = f
      · subst hfg
        rw [field?_cons_self hothers, Field.ofJson?_json, Field.get_put]
      · have hname : f.jsonName.toList ≠ g.jsonName.toList := fun hname ↦
          hfg (Field.jsonName_injective (String.toList_inj.1 hname)).symm
        rw [field?_cons_of_ne hname, hfields g, Field.get_put_of_ne hfg]

/-- Every configuration can be written by a lawful codec, and read back as it was. -/
theorem fromJson_toJson {k : Codec} (hk : k.Lawful) (c : Config) :
    ∃ text, toJson k c = .ok text ∧ fromJson k text = .ok c := by
  have hnodup : Field.declared.Nodup := by decide
  have hread := hk.read_fields c hnodup
  rw [foldr_put_declared] at hread
  refine ⟨objectText (Field.declared.map c.member), ?_, ?_⟩
  · rw [toJson, hk.write_fields]
    rfl
  · rw [fromJson, hread]
    rfl

/-- The least and the greatest integers, with every option off its default. -/
theorem fromJson_toJson_extremes :
    let c : Config := ⟨some Int32.minValue, Int32.maxValue, Int32.minValue, 0, false,
      .scrollInsensitive, .updatable⟩
    let text := "\x7b\"max_field_size\":-2147483648,\"max_rows\":2147483647," ++
      "\"fetch_size\":-2147483648,\"query_timeout_secs\":0,\"escape_processing\":false," ++
      "\"result_set_type\":\"scroll_insensitive\"," ++
      "\"result_set_concurrency\":\"updatable\"\x7d"
    Codec.standard.Lawful ∧ toJson .standard c = .ok text ∧ fromJson .standard text = .ok c := by
  intro c text
  have htext : toJson .standard c = .ok text := by decide +kernel
  obtain ⟨written, hwritten, hread⟩ := fromJson_toJson lawful_standard c
  rw [htext] at hwritten
  rw [← Except.ok.inj hwritten] at hread
  exact ⟨lawful_standard, htext, hread⟩

end Config

end SqlSession
