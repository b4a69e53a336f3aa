import Mathlib.Data.List.DropRight
import SqlSession.Proofs.FieldAssignments
import SqlSession.Proofs.Numerals

/-!
# The values of properties

What the text of a property denotes as a value of its field, and how a text that denotes none is
refused: integers are numerals in the 32-bit range, truth values are words, and options are words or
the numerals of their codes. The texts that are read are exactly those that denote a value.
-/

namespace SqlSession

namespace Text

/-- A letter in either case is no blank. -/
theorem isBlank_toLower (c : Char) : isBlank c.toLower = isBlank c := by
  have hall : ∀ k < 26, isBlank (Char.ofNat (65 + k)).toLower = isBlank (Char.ofNat (65 + k)) := by
    decide
  rcases toLower_cases c with hsame | ⟨k, hk, rfl⟩
  · rw [hsame]
  · exact hall k hk

theorem trim_trim (s : List Char) : trim (trim s) = trim s := by
  have hstart : trimStart (trimStart s) = trimStart s := List.dropWhile_idempotent isBlank s
  rw [trim, trim, trimStart_trimEnd, trimEnd_trimEnd, hstart]

/-- What keeps blanks and other characters apart can be done before or after trimming. -/
theorem trim_map {f : Char → Char} (hf : ∀ c, isBlank (f c) = isBlank c) (s : List Char) :
    trim (s.map f) = (trim s).map f := by
  have hend (t : List Char) : trimEnd (t.map f) = (trimEnd t).map f := by
    induction t with
    | nil => rfl
    | cons c r ih =>
      rw [List.map_cons, trimEnd_cons, trimEnd_cons, ih, hf]
      simp only [List.map_eq_nil_iff]
      split
      · split <;> rfl
      · rfl
  have hstart : trimStart (s.map f) = (trimStart s).map f := by
    have hblank : isBlank ∘ f = isBlank := funext hf
    rw [trimStart, List.dropWhile_map, hblank, trimStart]
  rw [trim, hstart, hend, trim]

end Text

namespace Property

open Decimal (Numeral)

/-- The words for the truth values. -/
inductive Truth : List Char → Bool → Prop
  | affirmed {w : List Char}
      (word : w ∈ ["1".toList, "true".toList, "yes".toList, "on".toList]) : Truth w true
  | denied {w : List Char}
      (word : w ∈ ["0".toList, "false".toList, "no".toList, "off".toList]) : Truth w false

/-- The text of a value without blanks around it, in small letters, with underscores for hyphens. -/
def plain (s : List Char) : List Char :=
  (Text.trim s).map fun c ↦ if c = '-' then '_' else c.toLower

/-- The text is the word for a value, or a numeral for its code. -/
def Names (word : String) (code : Int) (s : List Char) : Prop := s = word.toList ∨ Numeral s code

/-- The text denotes the value of the field. -/
def Field.Denotes : (f : Field) → List Char → f.Value → Prop
  | .maxRows, s, n => Numeral (Text.trim s) (Int32.toInt n)
  | .fetchSize, s, n => Numeral (Text.trim s) (Int32.toInt n)
  | .maxFieldSize, s, m => ∃ n : Int32, m = some n ∧ Numeral (Text.trim s) n.toInt
  | .queryTimeout, s, n => Numeral (Text.trim s) (Int32.toInt n)
  | .escapeProcessing, s, b => Truth (Text.lower (Text.trim s)) b
  | .resultSetType, s, .forwardOnly => Names "forward_only" 1003 (plain s)
  | .resultSetType, s, .scrollInsensitive => Names "scroll_insensitive" 1004 (plain s)
  | .resultSetType, s, .scrollSensitive => Names "scroll_sensitive" 1005 (plain s)
  | .concurrency, s, .readOnly => Names "read_only" 1007 (plain s)
  | .concurrency, s, .updatable => Names "updatable" 1008 (plain s)

/-- The refusal of a text that names no value of an option: a numeral is not one of its codes, and
any other text is no integer. -/
inductive Misnames (property option : String) (s : List Char) : SqlError → Prop
  | code {n : Int32} (numeral : Numeral s n.toInt) :
    Misnames property option s (.invalidArgument (.unknownCode option n))
  | text (none : ∀ n : Int32, ¬Numeral s n.toInt) :
    Misnames property option s (.invalidArgument (.notAnIntegerFor property (String.ofList s)))

/-- The refusal of a property whose text denotes no value of the field. -/
def Field.Refuses : Field → Property → SqlError → Prop
  | .escapeProcessing, p, e =>
    e = .invalidArgument (.notABooleanFor (String.ofList p.key) (String.ofList p.value))
  | .resultSetType, p, e => Misnames "resultsettype" "result set type" (plain p.value) e
  | .concurrency, p, e => Misnames "resultsetconcurrency" "result set concurrency" (plain p.value) e
  | _, p, e => e = .invalidArgument (.notAnIntegerFor (String.ofList p.key) (String.ofList p.value))

theorem Misnames.unique {property option : String} {s : List Char} {e e' : SqlError}
    (h : Misnames property option s e) (h' : Misnames property option s e') : e = e' := by
  cases h with
  | code numeral =>
    cases h' with
    | code numeral' => rw [Int32.toInt_inj.1 (numeral.unique numeral')]
    | text none => exact absurd numeral (none _)
  | text none =>
    cases h' with
    | code numeral => exact absurd numeral (none _)
    | text => rfl

/-- A property is refused in one way. -/
theorem Field.Refuses.unique {f : Field} {p : Property} {e e' : SqlError} (h : f.Refuses p e)
    (h' : f.Refuses p e') : e = e' := by
  cases f with
  | resultSetType => exact Misnames.unique h h'
  | concurrency => exact Misnames.unique h h'
  | _ => exact Eq.trans h h'.symm

end Property

namespace Config

open Decimal (Numeral)
open Property (Field Truth Names Misnames plain)

variable {key : String} {value : List Char} {e : SqlError}

/-- An integer is read from the numerals that denote one of 32 bits. -/
theorem readInt_ok_iff {n : Int32} :
    readInt key value = .ok n ↔ Numeral (Text.trim value) n.toInt := by
  rw [← Decimal.readInt32?_eq_some_iff]
  unfold readInt
  cases Decimal.readInt32? (Text.trim value) <;> simp

theorem readInt_error (h : readInt key value = .error e) :
    e = .invalidArgument (.notAnIntegerFor key (String.ofList value)) := by
  unfold readInt at h
  split at h
  · cases h
  · exact (Except.error.inj h).symm

/-- A truth value is read from its words. -/
theorem readBool_ok_iff {b : Bool} :
    readBool key value = .ok b ↔ Truth (Text.lower (Text.trim value)) b := by
  have hapart : ∀ w ∈ trueWords, w ∉ falseWords := by decide
  constructor
  · intro h
    unfold readBool at h
    dsimp only at h
    split at h
    · next hw =>
      rw [← Except.ok.inj h]
      exact .affirmed hw
    · split at h
      · next hw =>
        rw [← Except.ok.inj h]
        exact .denied hw
      · cases h
  · intro h
    cases h with
    | affirmed hw => exact if_pos hw
    | denied hw =>
      have hno : Text.lower (Text.trim value) ∉ trueWords := fun hyes ↦ hapart _ hyes hw
      exact (if_neg hno).trans (if_pos hw)

theorem readBool_error (h : readBool key value = .error e) :
    e = .invalidArgument (.notABooleanFor key (String.ofList value)) := by
  unfold readBool at h
  dsimp only at h
  split at h
  · cases h
  · split at h
    · cases h
    · exact (Except.error.inj h).symm

/-- The text of an option is compared as it is plain. -/
theorem optionWord_eq (value : List Char) : optionWord value = plain value := by
  have hfold (c : Char) : (if c.toLower = '-' then '_' else c.toLower) =
      if c = '-' then '_' else c.toLower := by
    have hall : ∀ k < 26, (Char.ofNat (65 + k)).toLower ≠ '-' ∧ Char.ofNat (65 + k) ≠ '-' := by
      decide
    rcases Text.toLower_cases c with hsame | ⟨k, hk, rfl⟩
    · rw [hsame]
    · rw [if_neg (hall k hk).1, if_neg (hall k hk).2]
  rw [optionWord, Text.lower, List.map_map, plain]
  exact congrFun (congrArg List.map (funext hfold)) _

/-- A plain text has no blanks around it. -/
theorem trim_plain (value : List Char) : Text.trim (plain value) = plain value := by
  have hfold (c : Char) : Text.isBlank (if c = '-' then '_' else c.toLower) = Text.isBlank c := by
    split
    · next hc =>
      subst hc
      decide
    · exact Text.isBlank_toLower c
  rw [plain, Text.trim_map hfold, Text.trim_trim]

section Options

variable {α : Type} [Coded α] [Worded α]

/-- No word is a numeral. -/
theorem not_numeral_word (a : α) (n : Int) : ¬Numeral (Worded.word a).toList n := by
  intro h
  obtain ⟨c, hmem, hc⟩ := h.exists_digit
  have hno : wordLetters.all (fun c ↦ !c.isDigit) = true := by decide
  have hnot := List.all_eq_true.1 (Worded.all_word hno a) c hmem
  rw [hc] at hnot
  cases hnot

/-- An option is read from its words and the numerals of its codes. -/
theorem readOption_ok_iff {a : α} : readOption value = .ok a ↔
    Names (Worded.word a) (Coded.code a).toInt (plain value) := by
  rw [readOption, optionWord_eq]
  constructor
  · intro h
    split at h
    · next b hb =>
      obtain rfl := Except.ok.inj h
      exact .inl (Worded.ofWord?_eq_some_iff.1 hb).symm
    · cases hn : readInt (Worded.property α) (plain value) with
      | error e =>
        rw [hn] at h
        cases h
      | ok n =>
        rw [hn] at h
        have hnumeral := readInt_ok_iff.1 hn
        rw [trim_plain] at hnumeral
        rw [Coded.ofCode_ok_iff.1 h]
        exact .inr hnumeral
  · rintro (hword | hnumeral)
    · rw [Worded.ofWord?_eq_some_iff.2 hword.symm]
    · have hnone : (Worded.ofWord? (plain value) : Option α) = none := by
        refine Option.eq_none_iff_forall_not_mem.2 fun b hb ↦ ?_
        rw [← Worded.ofWord?_eq_some_iff.1 hb] at hnumeral
        exact not_numeral_word b _ hnumeral
      rw [← trim_plain] at hnumeral
      rw [hnone, readInt_ok_iff.2 hnumeral]
      exact Coded.ofCode_ok_iff.2 rfl

theorem readOption_error (h : (readOption value : Except SqlError α) = .error e) :
    Misnames (Worded.property α) (Coded.option α) (plain value) e := by
  rw [readOption, optionWord_eq] at h
  split at h
  · cases h
  · cases hn : readInt (Worded.property α) (plain value) with
    | error e' =>
      rw [hn] at h
      obtain rfl := Except.error.inj h
      rw [readInt_error hn]
      refine .text fun n hnumeral ↦ ?_
      rw [← trim_plain] at hnumeral
      rw [readInt_ok_iff.2 hnumeral] at hn
      cases hn
    | ok n =>
      rw [hn] at h
      have hnumeral := readInt_ok_iff.1 hn
      rw [trim_plain] at hnumeral
      rw [(Coded.ofCode_error_iff.1 h).2]
      exact .code hnumeral

end Options

end Config

namespace Property.Field

variable {f : Field} {p : Property}

/-- The properties that are read are those whose text denotes a value of the field. -/
theorem read_ok_iff {v : f.Value} : f.read p = .ok v ↔ f.Denotes p.value v := by
  cases f with
  | maxFieldSize =>
    constructor
    · intro h
      cases hn : Config.readInt (String.ofList p.key) p.value with
      | error e =>
        rw [read, hn] at h
        cases h
      | ok n =>
        rw [read, hn] at h
        exact ⟨n, (Except.ok.inj h).symm, Config.readInt_ok_iff.1 hn⟩
    · rintro ⟨n, rfl, hn⟩
      rw [read, Config.readInt_ok_iff.2 hn]
      rfl
  | escapeProcessing => exact Config.readBool_ok_iff
  | resultSetType => exact Config.readOption_ok_iff.trans (by cases v <;> exact Iff.rfl)
  | concurrency => exact Config.readOption_ok_iff.trans (by cases v <;> exact Iff.rfl)
  | _ => exact Config.readInt_ok_iff

/-- The others are refused with the one error for them. -/
theorem read_error_iff {e : SqlError} :
    f.read p = .error e ↔ (∀ v, ¬f.Denotes p.value v) ∧ f.Refuses p e := by
  have hrefused {e : SqlError} (h : f.read p = .error e) : f.Refuses p e := by
    cases f with
    | maxFieldSize =>
      cases hn : Config.readInt (String.ofList p.key) p.value with
      | ok n =>
        rw [read, hn] at h
        cases h
      | error e' =>
        rw [read, hn] at h
        rw [← Except.error.inj h]
        exact Config.readInt_error hn
    | escapeProcessing => exact Config.readBool_error h
    | resultSetType => exact Config.readOption_error h
    | concurrency => exact Config.readOption_error h
    | _ => exact Config.readInt_error h
  constructor
  · intro h
    refine ⟨fun v hv ↦ ?_, hrefused h⟩
    rw [read_ok_iff.2 hv] at h
    cases h
  · rintro ⟨hnone, he⟩
    cases h : f.read p with
    | ok v => exact absurd (read_ok_iff.1 h) (hnone v)
    | error e' => rw [(hrefused h).unique he]

end Property.Field

end SqlSession
